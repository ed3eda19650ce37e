import TagScript.Proofs.Delivery
import TagScript.Proofs.Records

/-!
# Rows that are put out one after the other

An output adds a row of variables to a file, and the headings before the
first one. Whatever a file spells, it spells that and one row more after an
output, so a file to which nothing but rows were put out spells the
headings and then the rows: `World.Stores` is what one output keeps, and
`Engine.exists_succession` follows for any number of them.

How a tag puts out a row depends on its attributes, and these are read
where it is executed. `Tag.Outputs` says what they must read as, on an
`Occasion`: a tag and the variables in which it is executed.
-/

namespace TagScript

namespace Table

/-! ## The rows of a sheet -/

/-- **Headings that come back as they are**: none is there twice, none holds
a comma or names a reserved variable, and the first one does not begin with
a byte order mark. -/
structure Headings (columns : List String) : Prop where
  /-- There is a column. -/
  nonempty : columns ≠ []
  /-- No column is there twice. -/
  nodup : columns.Nodup
  /-- No column holds a comma. -/
  undivided : ∀ column ∈ columns, ',' ∉ column.toList
  /-- No column is a reserved variable. -/
  free : ∀ column ∈ columns, Reserved.isReserved column = false
  /-- The first column does not begin with a mark. -/
  unmarked : ∀ column ∈ columns.head?, ∀ c ∈ column.toList.head?, c ≠ Text.byteOrderMark

namespace Sheet

/-- **A row binds every column to its field.** -/
theorem get?_row {columns : List String} (h : Headings columns) (policy : FieldPolicy)
    (record : Record) {n : Nat} {column : String} (hn : columns[n]? = some column) :
    (row policy columns record).get? column = some (policy.value record[n]?) := by
  refine get?_row_of_last (h.free column (List.mem_of_getElem? hn)) hn fun hmem => ?_
  obtain ⟨m, hm⟩ := List.getElem?_of_mem hmem
  rw [List.getElem?_drop] at hm
  have hlt : n < columns.length := (List.getElem?_eq_some_iff.1 hn).1
  have heq := (List.getElem?_inj hlt h.nodup).1 (hn.trans hm.symm)
  omega

/-- What the columns read in the row of a record that has a field for each of
them. -/
theorem map_get?_row {columns : List String} (h : Headings columns) (nullable : Bool)
    {record : Record} (hlength : record.length = columns.length) :
    columns.map (row ⟨false, nullable⟩ columns record).get? =
      record.map fun text => some (.str text) := by
  refine List.ext_getElem? fun n => ?_
  rw [List.getElem?_map, List.getElem?_map]
  cases hn : columns[n]? with
  | none =>
    rw [List.getElem?_eq_none_iff] at hn
    have hnone : record[n]? = none := List.getElem?_eq_none_iff.2 (hlength ▸ hn)
    rw [hnone]
    rfl
  | some column =>
    have hlt : n < record.length := hlength ▸ (List.getElem?_eq_some_iff.1 hn).1
    rw [Option.map_some, get?_row h _ record hn, List.getElem?_eq_getElem hlt]
    rfl

/-- **The sheet of a table whose headings come back as they are.** -/
theorem ofText_of_records {columns : List String} (h : Headings columns) (policy : FieldPolicy)
    {source : String} {body : List Record} (hrecords : records source = columns :: body) :
    (ofText policy source).columns = columns ∧
      (ofText policy source).rows = (body.filter isRow).map (row policy columns) := by
  have hcolumns : columns.map columnName = columns := by
    have hkept : ∀ column ∈ columns, columnName column = id column := fun column hcolumn =>
      Text.replaceChar_of_not_mem (h.undivided column hcolumn) _
    rw [List.map_congr_left hkept, List.map_id]
  unfold ofText
  rw [hrecords]
  dsimp only
  rw [hcolumns]
  exact ⟨rfl, rfl⟩

end Sheet

end Table

/-! ## Tags with variables of their own -/

/-- **An occasion**: a tag, the depth of the tag around it, and the variables
in which it is executed. -/
structure Occasion where
  /-- The tag. -/
  tag : Tag
  /-- The depth of the tag around it. -/
  outer : Depth
  /-- The local variables. -/
  locals : Vars
  /-- The global variables. -/
  globals : Vars

namespace Occasion

/-- The frame of an occasion in some world. -/
def frame (o : Occasion) (w : World) : Frame := ⟨o.locals, { w with globals := o.globals }⟩

/-- The frame in which the runner of its tag begins. -/
def start (o : Occasion) (w : World) : Frame := (o.frame w).begin o.tag o.outer

/-- The texts of variables on an occasion. -/
def row (o : Occasion) (columns : List String) : Table.Record :=
  columns.map fun column => ((Scope.lookup o.locals o.globals column).getD .null).text

variable {o : Occasion} {w w' : World}

/-- Attributes read alike in worlds in which it is the same time. -/
theorem attrText_start (h : w'.clock = w.clock) (name : String) :
    (o.start w').attrText o.tag name = (o.start w).attrText o.tag name := by
  have hlocals : (o.start w').locals = (o.start w).locals := by
    show (o.locals.insert _ _).insert Reserved.logDatetime (.str w'.clock) = _
    rw [h]
    rfl
  have hglobals : ∀ w, (o.start w).world.globals = o.globals := fun _ => Frame.globals_begin
  unfold Frame.attrText Frame.substitute
  rw [hlocals, hglobals, hglobals]

theorem attrKey_start (h : w'.clock = w.clock) (name : String) :
    (o.start w').attrKey o.tag name = (o.start w).attrKey o.tag name := by
  rw [Frame.attrKey, attrText_start h]
  rfl

/-- What a row is made of is what the runner reads. -/
theorem row_eq {columns : List String} (h : Table.Headings columns) (w : World) :
    o.row columns = columns.map fun column => ((o.start w).read column).text := by
  refine List.map_congr_left fun column hcolumn => ?_
  rw [Frame.read, start, Frame.lookup_begin (h.free column hcolumn)]
  rfl

end Occasion

/-- **One tag after another**, each on its own occasion, and all of them
succeed. -/
inductive Engine.Succession (e : Engine) (means : Nat) : World → List Occasion → World → Prop where
  /-- There is no tag left. -/
  | none (w : World) : Succession e means w [] w
  /-- A tag succeeds, and the next ones find the world as it has left it. -/
  | next {w w' : World} {o : Occasion} {rest : List Occasion} {t : Frame}
      (h : e.execute means o.tag o.outer (o.frame w) = .done .ok t)
      (hrest : Succession e means t.world rest w') : Succession e means w (o :: rest) w'

/-! ## Outputs -/

/-- **A tag that adds a row to a file**, going by what its attributes read
as. -/
structure Tag.Outputs (tag : Tag) (s : Frame) (name : String) (columns : List String) : Prop where
  /-- It is a tag of that kind. -/
  name_eq : tag.name = "output"
  /-- Its encoding is a known one. -/
  encoded : Run.encodings.contains (Text.lower (s.attrKey tag "encoding")) = true
  /-- Its table is of the known type. -/
  typed : ((s.attrKey tag "type").isEmpty || Text.sameIgnoringCase (s.attrKey tag "type") "csv") = true
  /-- It names the file. -/
  file : s.attrKey tag "name" = name
  /-- The file has a name. -/
  named : name.isEmpty = false
  /-- No tag inside it makes the output. -/
  childless : tag.firstTag? = none
  /-- It names the columns. -/
  columns_eq : Text.names (s.attrKey tag "cols") = columns
  /-- It leaves it to the program how the file is opened. -/
  unmoded : s.attrKey tag "mode" = ""

namespace Runner

open Table

variable {site : Site} {s : Frame} {name dir : String} {rest columns : List String}

/-- **What an output writes**: its row, after the headings if the file was
empty. -/
theorem output_of_outputs (h : site.tag.Outputs s name columns) (hcolumns : columns ≠ [])
    (hdir : s.world.searchPath = dir :: rest) {place : Location}
    (hplace : s.world.files.Writable (Path.join dir name) place) :
    output site s = .done .ok (s.written .append (Path.join dir name) place fun before =>
      writeRecords (recordEnding (lineEnd? s site.tag))
        (if before.isEmpty then [columns, columns.map fun column => (s.read column).text]
          else [columns.map fun column => (s.read column).text])) := by
  have hmode : outputMode site.tag .append s = .done .append s := by
    unfold outputMode
    rw [Run.bind_attrKey, h.unmoded]
    rfl
  have hsome : columns.isEmpty = false := by simpa using hcolumns
  unfold output
  rw [Run.bind_of_done (Run.checkEncoding_of_contains h.encoded),
    Run.bind_of_done (Run.requireKey_of_attrKey h.file h.named), Run.bind_of_done (Run.outputPath_of_searchPath hdir name),
    Run.bind_of_done (show Run.look (lineEnd? · site.tag) s = .done (lineEnd? s site.tag) s from rfl),
    h.childless]
  dsimp only
  rw [Run.bind_of_done (Run.checkTableType_of_csv h.typed), Run.bind_attrKey, h.columns_eq, hsome,
    if_neg Bool.false_ne_true, Run.bind_of_done hmode]
  exact Run.bind_of_done (Run.writeFile_of_writable hplace .append _ .cannotOpen) _

end Runner

/-! ## The file between outputs -/

/-- **The file that rows are added to**: it can be written to, and is not there
or holds a text that spells some records. -/
structure World.Stores (w : World) (path : String) (place : Location) (rs : List Table.Record) :
    Prop where
  /-- It can be written to. -/
  writable : w.files.Writable path place
  /-- What is in it once it is open. -/
  spells : ∃ text, w.files.opened .append place = .text text ∧ Table.Spells text rs

/-- A file that is not there or empty spells no records. -/
theorem World.Stores.of_empty {w : World} {path : String} {place : Location}
    (hplace : w.files.Writable path place)
    (h : w.files.entry? place = none ∨ w.files.entry? place = some (.file (.text ""))) :
    w.Stores path place [] where
  writable := hplace
  spells := by
    refine ⟨"", ?_, Table.Spells.empty⟩
    unfold Files.opened
    obtain h | h := h
    · rw [h]
    · rw [h]

/-- A file that spells a record is there. -/
theorem World.Stores.exists_entry {w : World} {path : String} {place : Location}
    {rs : List Table.Record} (h : w.Stores path place rs) (hrs : rs ≠ []) :
    ∃ text, w.files.entry? place = some (.file (.text text)) ∧ Table.Spells text rs := by
  obtain ⟨text, hopened, hspells⟩ := h.spells
  have hne : text ≠ "" := by
    rintro rfl
    exact hrs (hspells.isEmpty_iff.1 rfl)
  refine ⟨text, ?_, hspells⟩
  unfold Files.opened at hopened
  split at hopened
  · next hentry =>
    rw [hentry, hopened]
  · exact absurd (Content.text.inj hopened).symm hne

/-- The records of a file after an output. -/
def Table.withRow (columns : Record) (rs : List Record) (row : Record) : List Record :=
  rs ++ if rs.isEmpty then [columns, row] else [row]

theorem Table.foldl_withRow_of_ne_nil (columns : Record) {rs : List Record} (h : rs ≠ [])
    (rows : List Record) : rows.foldl (withRow columns) rs = rs ++ rows := by
  induction rows generalizing rs with
  | nil => exact (List.append_nil rs).symm
  | cons row rows ih =>
    have hstep : withRow columns rs row = rs ++ [row] := by simp [withRow, h]
    rw [List.foldl_cons, hstep, ih (by simp), List.append_assoc]
    rfl

/-- **The headings are written once**, by the first output. -/
theorem Table.foldl_withRow (columns : Record) {rows : List Record} (h : rows ≠ []) :
    rows.foldl (withRow columns) [] = columns :: rows := by
  obtain ⟨first, rest, rfl⟩ := List.exists_cons_of_ne_nil h
  exact foldl_withRow_of_ne_nil columns (List.cons_ne_nil columns [first]) rest

theorem Files.opened_put {place : Location} (h : place ≠ []) (fs : Files) (content : Content) :
    (fs.put place (.file content)).opened .append place = content := by
  unfold opened
  rw [entry?_put_self h]

/-- **An output adds its row to what the file spells.** -/
theorem World.Stores.written {s : Frame} {path : String} {place : Location}
    {rs : List Table.Record} {columns row : Table.Record} (h : s.world.Stores path place rs)
    (hcolumns : Table.Headings columns) (hrow : row ≠ []) (ending : Table.Ending) :
    (s.written .append path place fun before =>
      Table.writeRecords ending (if before.isEmpty then [columns, row] else [row])).world.Stores path
      place (Table.withRow columns rs row) where
  writable := h.writable.put _
  spells := by
    obtain ⟨text, hopened, hspells⟩ := h.spells
    have hempty : text.isEmpty = rs.isEmpty := by
      rw [Bool.eq_iff_iff, hspells.isEmpty_iff, List.isEmpty_iff]
    refine ⟨text ++ Table.writeRecords ending (if rs.isEmpty then [columns, row] else [row]), ?_,
      hspells.addAll ending ?_ ?_⟩
    · have hput := Files.opened_put h.writable.ne_nil s.world.files (.text
        (text ++ Table.writeRecords ending (if rs.isEmpty then [columns, row] else [row])))
      rw [← hempty] at hput ⊢
      show (s.world.files.written .append place _).opened .append place = _
      unfold Files.written
      rw [hopened]
      exact hput
    · intro record hrecord
      split at hrecord
      · obtain rfl | rfl : record = columns ∨ record = row := by simpa using hrecord
        · exact hcolumns.nonempty
        · exact hrow
      · obtain rfl := List.mem_singleton.1 hrecord
        exact hrow
    · rintro rfl record hrecord
      obtain rfl : columns = record := Option.some.inj hrecord
      exact hcolumns.unmarked

theorem World.Stores.of_files {w w' : World} {path : String} {place : Location}
    {rs : List Table.Record} (h : w.Stores path place rs) (hfiles : w'.files = w.files) :
    w'.Stores path place rs where
  writable := by
    rw [hfiles]
    exact h.writable
  spells := by
    rw [hfiles]
    exact h.spells

/-- Attributes that read alike make a tag the same output. -/
theorem Tag.Outputs.of_attrKey {tag : Tag} {s t : Frame} {name : String} {columns : List String}
    (h : tag.Outputs s name columns)
    (hread : ∀ attr, t.attrKey tag attr = s.attrKey tag attr) : tag.Outputs t name columns where
  name_eq := h.name_eq
  encoded := by
    rw [hread]
    exact h.encoded
  typed := by
    rw [hread]
    exact h.typed
  file := (hread _).trans h.file
  named := h.named
  childless := h.childless
  columns_eq := by
    rw [hread]
    exact h.columns_eq
  unmoded := (hread _).trans h.unmoded

namespace Engine

/-- One output. -/
theorem exists_execute_output (limit : Option Nat) (means : Nat) {name dir : String}
    {rest columns : List String} {place : Location} (hcolumns : Table.Headings columns)
    {o : Occasion} {w : World} {rs : List Table.Record} (hdir : w.searchPath = dir :: rest)
    (hstores : w.Stores (Path.join dir name) place rs)
    (houtputs : o.tag.Outputs (o.start w) name columns)
    (hdepth : ∀ d, limit = some d → (o.outer + 1).number ≤ d) :
    ∃ t, (standard limit).execute (means + 1) o.tag o.outer (o.frame w) = .done .ok t ∧
      t.world.searchPath = w.searchPath ∧ t.world.clock = w.clock ∧
      t.world.Stores (Path.join dir name) place (Table.withRow columns rs (o.row columns)) := by
  have hmem : (o.tag.name, Runner.output) ∈ builtins := by
    simp [builtins, houtputs.name_eq]
  have hfiles : (o.start w).world.files = w.files := Frame.files_begin
  have hsearch : (o.start w).world.searchPath = w.searchPath := Frame.searchPath_begin
  have hstart : (o.start w).world.Stores (Path.join dir name) place rs := hstores.of_files hfiles
  have hrun := @Runner.output_of_outputs ((standard limit).site means o.tag o.outer) _ _ _ _ _
    houtputs hcolumns.nonempty (hsearch.trans hdir) _ hstart.writable
  rw [← Occasion.row_eq hcolumns] at hrun
  refine ⟨_, boundary_of_done ((inside_of_mem hmem hdepth means _).trans hrun), ?_, ?_, ?_⟩
  · exact (Frame.searchPath_leave _).trans hsearch
  · exact (Frame.clock_leave _).trans (Frame.clock_begin (s := o.frame w))
  · refine (hstart.written hcolumns ?_ _).of_files (Frame.files_leave _)
    exact fun hnone => hcolumns.nonempty (List.map_eq_nil_iff.1 hnone)

/-- **Output after output** succeeds and adds row after row. -/
theorem exists_succession (limit : Option Nat) (means : Nat) {name dir : String}
    {rest columns : List String} {place : Location} (hcolumns : Table.Headings columns)
    {scopes : List Occasion} {w : World} {rs : List Table.Record}
    (hdir : w.searchPath = dir :: rest) (hstores : w.Stores (Path.join dir name) place rs)
    (houtputs : ∀ o ∈ scopes, o.tag.Outputs (o.start w) name columns)
    (hdepth : ∀ o ∈ scopes, ∀ d, limit = some d → (o.outer + 1).number ≤ d) :
    ∃ w', (standard limit).Succession (means + 1) w scopes w' ∧ w'.searchPath = w.searchPath ∧
      w'.clock = w.clock ∧
      w'.Stores (Path.join dir name) place
        ((scopes.map (·.row columns)).foldl (Table.withRow columns) rs) := by
  induction scopes generalizing w rs with
  | nil => exact ⟨w, .none w, rfl, rfl, hstores⟩
  | cons o scopes ih =>
    obtain ⟨t, hrun, hsearch, hclock, hstored⟩ := exists_execute_output limit means hcolumns hdir
      hstores (houtputs o List.mem_cons_self) (hdepth o List.mem_cons_self)
    have hothers : ∀ other ∈ scopes, other.tag.Outputs (other.start t.world) name columns :=
      fun other hmem => (houtputs other (List.mem_cons_of_mem _ hmem)).of_attrKey
        (Occasion.attrKey_start hclock)
    obtain ⟨w', hnext, hsearch', hclock', hstores'⟩ := ih (hsearch.trans hdir) hstored hothers
      fun other hmem => hdepth other (List.mem_cons_of_mem _ hmem)
    exact ⟨w', .next hrun hnext, hsearch'.trans hsearch, hclock'.trans hclock, hstores'⟩

end Engine

end TagScript
