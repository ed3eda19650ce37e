import TagScript.Proofs.Leaf
import TagScript.Proofs.Opening
import TagScript.Proofs.Rounds
import TagScript.Proofs.Storage

/-!
# A sheet delivers its records

A tag that goes over a sheet runs the tags inside it once for every record
that is a row, in the order of the file. Before each round the row is merged
into the variables there, be they those of the round before or a copy of
those around the tag. What a merge binds is told by `Delivers`: every column
to the field of this record and of no other, the number of the row, the list
of the columns, and nothing else.

In particular no variable of the interpreter is bound by what stands in a
file. Neither is one by a table of names and values.
-/

namespace TagScript

namespace Dict

variable {α : Type}

/-- **A key reads as it was bound last.** -/
theorem get?_insertAll_append_cons {before after : List (String × α)} {key : String}
    (h : key ∉ after.map Prod.fst) (value : α) (d : Dict α) :
    (d.insertAll (before ++ (key, value) :: after)).get? key = some value := by
  rw [insertAll_append]
  exact (get?_insertAll_of_not_mem h _).trans (get?_insert_self _ key value)

end Dict

namespace Table.Sheet

/-! ## What the row of a record binds -/

/-- The records of a table that are rows. -/
def accepted (source : String) : List Record := (records source).tail.filter isRow

/-- The columns of a table: its first record, without commas. -/
def columnsOf (source : String) : List String := ((records source).headD []).map columnName

theorem ofText_eq (policy : FieldPolicy) (source : String) :
    ofText policy source = ⟨columnsOf source,
      (accepted source).map (row policy (columnsOf source)), lineCount source - 1⟩ := by
  unfold ofText accepted columnsOf
  cases records source <;> rfl

theorem map_fst_aligned (columns : List String) (record : Record) :
    (aligned columns record).map Prod.fst = columns := by
  refine List.ext_getElem? fun n => ?_
  rw [List.getElem?_map, getElem?_aligned, Option.map_map]
  exact Option.map_id'

variable {policy : FieldPolicy} {columns : List String} {record : Record} {column : String}

/-- **The last of the columns of a name counts**, and it is bound to the field
at its own place. -/
theorem get?_row_of_last {n : Nat} (hfree : Reserved.isReserved column = false)
    (hn : columns[n]? = some column) (hlast : column ∉ columns.drop (n + 1)) :
    (row policy columns record).get? column = some (policy.value record[n]?) := by
  have hentry : (aligned columns record)[n]? = some (column, record[n]?) := by
    rw [getElem?_aligned, hn]
    rfl
  obtain ⟨hlt, hget⟩ := List.getElem?_eq_some_iff.1 hentry
  have hsplit : aligned columns record = (aligned columns record).take n ++
      (column, record[n]?) :: (aligned columns record).drop (n + 1) := by
    rw [← hget, List.getElem_cons_drop, List.take_append_drop]
  have hafter : column ∉ ((((aligned columns record).drop (n + 1)).filter fun entry =>
      !Reserved.isReserved entry.1).map fun entry =>
        (entry.1, policy.value entry.2)).map Prod.fst := by
    intro hmem
    rw [List.map_map] at hmem
    obtain ⟨entry, hfiltered, rfl⟩ := List.mem_map.1 hmem
    refine hlast ?_
    rw [← map_fst_aligned columns record, ← List.map_drop]
    exact List.mem_map_of_mem (List.mem_filter.1 hfiltered).1
  unfold row Dict.ofList
  rw [hsplit, List.filter_append, List.map_append, List.filter_cons_of_pos (by simp [hfree]),
    List.map_cons]
  exact Dict.get?_insertAll_append_cons hafter _ _

/-- **A row binds columns only, and no reserved variable.** -/
theorem mem_columns_of_mem_row {entry : String × Value} (h : entry ∈ row policy columns record) :
    entry.1 ∈ columns ∧ Reserved.isReserved entry.1 = false := by
  obtain h | h := Dict.mem_or_mem_of_mem_insertAll h
  · obtain ⟨cell, hcell, rfl⟩ := List.mem_map.1 h
    obtain ⟨hmem, hfree⟩ := List.mem_filter.1 hcell
    refine ⟨?_, by simpa using hfree⟩
    rw [← map_fst_aligned columns record]
    exact List.mem_map_of_mem hmem
  · exact absurd h List.not_mem_nil

end Table.Sheet

namespace Runner

open Table (FieldPolicy Record)

/-! ## What a merge binds -/

/-- **A row is delivered**: what its merge makes of some variables, given the
record and the place among the rows. -/
structure Delivers (policy : FieldPolicy) (columns : List String) (record : Record) (n : Nat)
    (before after : Vars) : Prop where
  /-- Every column is bound to the field at its own place, if its name is not
  reserved; of columns of one name the last one is. -/
  field : ∀ k column, columns[k]? = some column → column ∉ columns.drop (k + 1) →
    Reserved.isReserved column = false → after.get? column = some (policy.value record[k]?)
  /-- The rows are numbered from one. A number that is greater already
  stays. -/
  index : after.get? Reserved.loadedDataItemIndex =
    some (rowNumber (before.get? Reserved.loadedDataItemIndex) (Int64.ofNat (n + 1)))
  /-- All columns are listed, also those of reserved names. -/
  listed : after.get? Reserved.loadedDataCols = some (.str (Text.joinWith "," columns))
  /-- No other reserved variable is touched. -/
  reserved : ∀ name, Reserved.isReserved name = true → name ≠ Reserved.loadedDataItemIndex →
    name ≠ Reserved.loadedDataCols → after.get? name = before.get? name
  /-- Nor is any that is not a column. -/
  others : ∀ name, Reserved.isReserved name = false → name ∉ columns →
    after.get? name = before.get? name

/-- A variable that is not bound by a row is left alone by its merge, apart
from the two that tell of the row. -/
theorem get?_rowScope_of_not_mem {name : String} {row : Vars} (h : name ∉ row.map Prod.fst)
    (hindex : name ≠ Reserved.loadedDataItemIndex) (hcols : name ≠ Reserved.loadedDataCols)
    (columns : List String) (n : Nat) (locals : Vars) :
    (rowScope columns row n locals).get? name = locals.get? name := by
  unfold rowScope
  dsimp only
  rw [Dict.get?_insert_of_ne _ _ hcols, Dict.get?_insert_of_ne _ _ hindex]
  exact Dict.get?_insertAll_of_not_mem h locals

/-- **In the scope of a row its columns read as they do in the row.** -/
theorem get?_rowScope {column : String} (hfree : Reserved.isReserved column = false) {row : Vars}
    (hrow : row.Ascending) {v : Value} (h : row.get? column = some v) (columns : List String)
    (n : Nat) (locals : Vars) : (rowScope columns row n locals).get? column = some v := by
  have hcolumns : column ≠ Reserved.loadedDataCols := by
    rintro rfl
    exact absurd hfree (by decide)
  have hindex : column ≠ Reserved.loadedDataItemIndex := by
    rintro rfl
    exact absurd hfree (by decide)
  unfold rowScope
  dsimp only
  rw [Dict.get?_insert_of_ne _ _ hcolumns, Dict.get?_insert_of_ne _ _ hindex]
  exact Dict.get?_insertAll_of_mem hrow.nodup_keys (Dict.mem_of_get?_eq_some h) locals

/-- **Every merge delivers its row**, whatever the variables are. -/
theorem delivers_rowScope (policy : FieldPolicy) (columns : List String) (record : Record)
    (n : Nat) (locals : Vars) :
    Delivers policy columns record n locals
      (rowScope columns (Table.Sheet.row policy columns record) (n + 1) locals) := by
  have hkey {name : String}
      (hmem : name ∈ (Table.Sheet.row policy columns record).map Prod.fst) :
      name ∈ columns ∧ Reserved.isReserved name = false := by
    obtain ⟨entry, hentry, rfl⟩ := List.mem_map.1 hmem
    exact Table.Sheet.mem_columns_of_mem_row hentry
  have hreserved {name : String} (h : Reserved.isReserved name = true) :
      name ∉ (Table.Sheet.row policy columns record).map Prod.fst := fun hmem =>
    Bool.false_ne_true ((hkey hmem).2.symm.trans h)
  constructor
  case field =>
    intro k column hk hlast hfree
    exact get?_rowScope hfree (Dict.ascending_ofList _)
      (Table.Sheet.get?_row_of_last hfree hk hlast) _ _ _
  case index =>
    unfold rowScope
    dsimp only
    rw [Dict.get?_insert_of_ne _ _ (by decide), Dict.get?_insert_self,
      Dict.get?_insertAll_of_not_mem (hreserved (by decide))]
  case listed =>
    exact Dict.get?_insert_self _ _ _
  case reserved =>
    intro name h hindex hcols
    exact get?_rowScope_of_not_mem (hreserved h) hindex hcols _ _ _
  case others =>
    intro name hfree hother
    refine get?_rowScope_of_not_mem (fun hmem => hother (hkey hmem).1) ?_ ?_ _ _ _
    · rintro rfl
      exact absurd hfree (by decide)
    · rintro rfl
      exact absurd hfree (by decide)

end Runner

/-! ## A tag that goes over a sheet -/

/-- **A tag that goes over the rows of a file**, going by what its attributes
read as. -/
structure Tag.GoesOver (tag : Tag) (s : Frame) (name : String) (shared : Bool)
    (policy : Table.FieldPolicy) : Prop where
  /-- It is a tag of that kind. -/
  name_eq : tag.name = "load_data"
  /-- Its encoding is a known one. -/
  encoded : Run.encodings.contains (Text.lower (s.attrKey tag "encoding")) = true
  /-- Its table is of the known type. -/
  typed : ((s.attrKey tag "type").isEmpty || Text.sameIgnoringCase (s.attrKey tag "type") "csv") = true
  /-- Whether it works on the local variables themselves. -/
  sharing : Run.passThrough tag s = .done shared s
  /-- How it reads fields. -/
  reading : Run.fieldPolicy tag s = .done policy s
  /-- It names the file. -/
  file : s.attrKey tag "name" = name
  /-- The file has a name. -/
  named : name.isEmpty = false

namespace Runner

variable {site : Site} {s t : Frame} {name source : String} {shared : Bool}
  {policy : Table.FieldPolicy}

/-- The frame in which the first round begins, but for the row. -/
def counted (s : Frame) (source : String) : Frame :=
  s.setLocal Reserved.loadedDataCount (.int (Int64.ofNat (Table.lineCount source - 1)))

/-- What is bound for a record before its round. -/
def delivery (policy : Table.FieldPolicy) (source : String) (item : Table.Record × Nat) :
    Vars → Vars :=
  rowScope (Table.Sheet.columnsOf source)
    (Table.Sheet.row policy (Table.Sheet.columnsOf source) item.1) (item.2 + 1)

/-- The frame after the last round: the count is gone. -/
def discounted (t : Frame) : Frame := t.rebind (·.erase Reserved.loadedDataCount)

/-- **A load makes a round for every row** of the sheet that the file spells,
up to the first that is not completed. -/
theorem loadSheet_of_rounds (h : site.tag.GoesOver s name shared policy)
    (hsource : Run.readFile name s = .done source s) {sheet : Table.Sheet}
    (hsheet : sheet = Table.Sheet.ofText policy source) {rounds : List Round} {stop : Stop}
    (hrounds : site.Rounds shared (fun item => rowScope sheet.columns item.1 (item.2 + 1))
      sheet.rows.zipIdx
      (s.setLocal Reserved.loadedDataCount (.int (Int64.ofNat sheet.count))) rounds stop t) :
    loadSheet site s =
      stop.elim (.done .ok (discounted t)) (fun _ _ => .done .ok (discounted t)) (.exhausted t) := by
  have hcalls : ¬site.calls := by simp [Site.calls, h.name_eq]
  have hforEach := Site.forEach_of_rounds hcalls hrounds
  subst hsheet
  rw [loadSheet_of_source (Run.checkTableType_of_csv h.typed)
    (Run.checkEncoding_of_contains h.encoded) h.sharing h.reading
    (Run.requireKey_of_attrKey h.file h.named) hsource]
  cases stop with
  | completed => exact Run.bind_of_done hforEach _
  | broken child outcome => exact Run.bind_of_done hforEach _
  | cut child => exact Run.bind_of_exhausted hforEach _

/-- Without a text there is nothing to go over. -/
theorem loadSheet_of_error (h : site.tag.GoesOver s name shared policy) {why : Refusal}
    (hread : s.world.files.readText (s.world.resolve name) = .error why) :
    loadSheet site s = .failed (.of (.cannotRead (s.world.resolve name) why)) s := by
  unfold loadSheet
  rw [Run.bind_of_done (Run.checkTableType_of_csv h.typed),
    Run.bind_of_done (Run.checkEncoding_of_contains h.encoded), Run.bind_of_done h.sharing,
    Run.bind_of_done h.reading,
    Run.bind_of_done (Run.requireKey_of_attrKey h.file h.named),
    Run.bind_of_failed (Run.readFile_of_error hread)]

/-- **The rows are those of the records**: a load may be told from these. -/
theorem loadSheet_of_deliveries (h : site.tag.GoesOver s name shared policy)
    (hsource : Run.readFile name s = .done source s) {rounds : List Round} {stop : Stop}
    (hrounds : site.Rounds shared (delivery policy source) (Table.Sheet.accepted source).zipIdx
      (counted s source) rounds stop t) :
    loadSheet site s =
      stop.elim (.done .ok (discounted t)) (fun _ _ => .done .ok (discounted t)) (.exhausted t) := by
  refine @loadSheet_of_rounds _ _ _ _ _ _ _ h hsource _
    (Table.Sheet.ofText_eq policy source).symm rounds stop ?_
  dsimp only
  rw [List.zipIdx_map]
  exact Site.Rounds.of_comp hrounds

/-- **In the beginning of a round the row of its own record is delivered.** -/
theorem delivers_of_rounds {rounds : List Round} {stop : Stop}
    (h : site.Rounds shared (delivery policy source) (Table.Sheet.accepted source).zipIdx s rounds
      stop t) {n : Nat} {round : Round} (hn : rounds[n]? = some round) :
    ∃ record before, (Table.Sheet.accepted source)[n]? = some record ∧
      Delivers policy (Table.Sheet.columnsOf source) record n before round.start.locals := by
  obtain ⟨⟨record, m⟩, before, hitem, hstart⟩ := h.exists_start hn
  rw [List.getElem?_zipIdx, Nat.zero_add] at hitem
  obtain ⟨record', hrecord, hpair⟩ := Option.map_eq_some_iff.1 hitem
  obtain ⟨rfl, rfl⟩ := Prod.mk.inj hpair
  refine ⟨record', before.locals, hrecord, ?_⟩
  rw [hstart]
  exact delivers_rowScope _ _ _ _ _

/-- **Loading variables leaves the reserved ones alone.** -/
theorem get?_loadVariables (hname : site.tag.name = "load_vars") {key : String}
    (hkey : Reserved.isReserved key = true) :
    (loadVariables site s).after.locals.get? key = s.locals.get? key := by
  have hassigns {other : String} (h : site.tag.Assigns s other) :
      Reserved.isReserved other = false := by
    cases h with
    | loaded _ hfree => exact hfree
    | _ => simp_all
  obtain ⟨outcome, t, hdone, hdeed⟩ | ⟨fault, locks, hfailed⟩ :=
    @actsLast_loadVariables site s hname
  · rw [hdone]
    cases hdeed with
    | assigned bindings hbindings =>
      refine Dict.get?_insertAll_of_not_mem (fun hmem => ?_) _
      obtain ⟨binding, hbinding, rfl⟩ := List.mem_map.1 hmem
      exact Bool.false_ne_true ((hassigns (hbindings binding hbinding)).symm.trans hkey)
    | installed _ h => simp [hname] at h
    | nothing | assignedGlobally | advanced | defined | wrote | appended | started => rfl
  · rw [hfailed]
    rfl

end Runner

namespace Engine

variable {limit : Option Nat}

/-- **Variables from a table are no reserved ones**, whether or not its tag may
run where it stands. -/
theorem get?_inside_loadVariables {tag : Tag} (hname : tag.name = "load_vars") (means : Nat)
    (outer : Depth) (s : Frame) {key : String} (hkey : Reserved.isReserved key = true) :
    ((standard limit).inside means tag outer s).after.locals.get? key =
      (s.begin tag outer).locals.get? key := by
  have hmem : (tag.name, Runner.loadVariables) ∈ builtins := by simp [builtins, hname]
  obtain ⟨_, _, _, h⟩ | ⟨_, h⟩ := @dispatch_of_mem limit ((standard limit).site means tag outer) _
    hmem (s.enter tag (outer + 1))
  · unfold inside
    rw [h]
    rfl
  · unfold inside
    rw [h]
    exact Runner.get?_loadVariables hname hkey

/-- **A load delivers exactly the records that are rows.** Let a tag go over
the rows of a file that is read. Then it makes rounds for the records under
the headings whose first field is not blank, one after the other in the order
of the file, in which the variables are those of the round before or of the
tag, with the row merged into them. In a round every column that is not
reserved is bound to the field of its own record, read as the tag wants it.

As long as no tag inside yields false, there is a round for each of these
records and all tags inside are executed in it. Without exception a merge
binds no reserved variable but the number of the row and the list of the
columns. Nor does a tag that loads variables bind any. -/
theorem execute_load_delivers_records (limit : Option Nat) (means : Nat) {tag : Tag}
    {outer : Depth} {s : Frame} {name source : String} {shared : Bool} {policy : Table.FieldPolicy}
    (hload : tag.GoesOver (s.begin tag outer) name shared policy)
    (hwithin : ∀ d, limit = some d → (outer + 1).number ≤ d)
    (hread : (s.world.files.readText (s.world.resolve name)).map Text.dropMarks = .ok source) :
    (∃ binding rounds stop t,
      ((standard limit).site means tag outer).Rounds shared binding
        (Table.Sheet.accepted source).zipIdx (Runner.counted (s.begin tag outer) source) rounds stop
        t ∧
      (standard limit).inside means tag outer s =
        stop.elim (.done .ok (Runner.discounted t)) (fun _ _ => .done .ok (Runner.discounted t))
          (.exhausted t) ∧
      (∀ record n locals, Runner.Delivers policy (Table.Sheet.columnsOf source) record n locals
        (binding (record, n) locals)) ∧
      (∀ (n : Nat) (round : Round), rounds[n]? = some round →
        ∃ record before, (Table.Sheet.accepted source)[n]? = some record ∧
          Runner.Delivers policy (Table.Sheet.columnsOf source) record n before
            round.start.locals) ∧
      ((∀ round ∈ rounds, round.Holds) →
        stop = .completed ∧ rounds.length = (Table.Sheet.accepted source).length ∧
        ∀ round ∈ rounds, round.executed.map Prod.fst = tag.tags)) ∧
    ∀ (loading : Tag) (means : Nat) (outer : Depth) (s : Frame) (key : String),
      loading.name = "load_vars" → Reserved.isReserved key = true →
      ((standard limit).inside means loading outer s).after.locals.get? key =
        (s.begin loading outer).locals.get? key := by
  refine ⟨?_, fun loading means outer s key hname hkey =>
    get?_inside_loadVariables hname means outer s hkey⟩
  have hexec := (standard limit).run_ne_failed means tag outer
  obtain ⟨rounds, stop, t, hrounds⟩ := Site.exists_rounds hexec shared
    (Runner.delivery policy source) (Table.Sheet.accepted source).zipIdx
    (Runner.counted (s.begin tag outer) source)
  have hsource : Run.readFile name (s.begin tag outer) = .done source (s.begin tag outer) := by
    cases htext : s.world.files.readText (s.world.resolve name) with
    | error why =>
      rw [htext] at hread
      cases hread
    | ok text =>
      rw [htext] at hread
      obtain rfl := Except.ok.inj hread
      refine Run.readFile_of_readText ?_
      unfold World.resolve at htext ⊢
      rw [Frame.files_begin, Frame.searchPath_begin]
      exact htext
  have hmem : (tag.name, Runner.loadSheet) ∈ builtins := by simp [builtins, hload.name_eq]
  have hcalls : ¬((standard limit).site means tag outer).calls := by
    simp [Site.calls, hload.name_eq]
  refine ⟨Runner.delivery policy source, rounds, stop, t, hrounds, ?_, ?_, ?_, ?_⟩
  · exact (inside_of_mem hmem hwithin means s).trans
      (@Runner.loadSheet_of_deliveries ((standard limit).site means tag outer) _ _ _ _ _ _ hload
        hsource _ _ hrounds)
  · exact fun record n locals => Runner.delivers_rowScope policy _ record n locals
  · exact fun n round hn => Runner.delivers_of_rounds hrounds hn
  · intro hholds
    obtain ⟨rfl, hlength⟩ := hrounds.completed_of_holds hcalls hholds
    exact ⟨rfl, hlength.trans List.length_zipIdx, hrounds.map_fst_of_completed⟩

/-- A table with a column twice, one that is named as a reserved variable and
one with a comma in its name. The second record is no row, the other two are
shorter and longer than the headings. -/
def irregular : String :=
  "id,\"a,b\",__debug__,id\n 1 , 2 ,x\n ,left out,y,3\n4,,z, 5 ,6\n"

/-- A tag that goes over it and leaves its variables to the next round. -/
def deliveringIrregular : Tag :=
  ⟨"load_data", [("allow_none", some "yes"), ("name", some "rows.csv"),
    ("pass_through", some "yes")], [.tag ⟨"sub", [], [], .nowhere⟩], .nowhere⟩

/-- A frame with the table in a file. -/
def irregularFrame : Frame :=
  ⟨[], { World.ofFiles ((Files.empty []).makeFile ["rows.csv"] (.text irregular)) "" .bare with
    searchPath := ["."] }⟩

/-- What two of its columns are in the beginnings of the rounds. -/
theorem irregular_delivers_records :
    deliveringIrregular.GoesOver (irregularFrame.begin deliveringIrregular 0) "rows.csv" true
      ⟨true, true⟩ ∧
    (irregularFrame.world.files.readText (irregularFrame.world.resolve "rows.csv")).map
      Text.dropMarks = .ok irregular ∧
    ∃ (rounds : List Round) (binding : _) (t : Frame),
      ((standard (some 2)).site 1 deliveringIrregular 0).Rounds true binding
        (Table.Sheet.accepted irregular).zipIdx
        (Runner.counted (irregularFrame.begin deliveringIrregular 0) irregular) rounds .completed t ∧
      rounds.map (fun round =>
        (round.start.locals.get? "id", round.start.locals.get? "a_b")) =
          [(some .null, some (.str "2")), (some (.str "5"), some (.str ""))] := by
  have hload : deliveringIrregular.GoesOver (irregularFrame.begin deliveringIrregular 0) "rows.csv"
      true ⟨true, true⟩ := ⟨rfl, rfl, rfl, rfl, rfl, rfl, rfl⟩
  have htext : (irregularFrame.world.files.readText
      (irregularFrame.world.resolve "rows.csv")).map Text.dropMarks = .ok irregular := rfl
  obtain ⟨⟨binding, rounds, stop, t, hrounds, -, -, hread, hholds⟩, -⟩ :=
    execute_load_delivers_records (some 2) 1 hload (fun _ h => Option.some.inj h ▸ by decide) htext
  have htruthy : ∀ child ∈ deliveringIrregular.tags, ∀ s, ∃ outcome t,
      ((standard (some 2)).site 1 deliveringIrregular 0).run child s = .done outcome t ∧
        outcome.truthy = true := by
    intro child hchild s
    obtain rfl := List.mem_singleton.1 hchild
    exact ⟨_, _, rfl, rfl⟩
  obtain ⟨rfl, hlength, -⟩ := hholds (hrounds.holds htruthy)
  have haccepted : Table.Sheet.accepted irregular =
      [[" 1 ", " 2 ", "x"], ["4", "", "z", " 5 ", "6"]] := by decide +kernel
  have hcolumns : Table.Sheet.columnsOf irregular = ["id", "a_b", "__debug__", "id"] := by
    decide +kernel
  obtain ⟨first, second, rfl⟩ : ∃ first second, rounds = [first, second] := by
    rw [haccepted] at hlength
    match rounds, hlength with
    | [first, second], _ => exact ⟨first, second, rfl⟩
  obtain ⟨_, _, hfirst, hdelivers⟩ := hread 0 first rfl
  obtain ⟨_, _, hsecond, hdelivers'⟩ := hread 1 second rfl
  rw [haccepted] at hfirst hsecond
  rw [hcolumns] at hdelivers hdelivers'
  obtain rfl := Option.some.inj hfirst
  obtain rfl := Option.some.inj hsecond
  refine ⟨hload, htext, _, binding, t, hrounds, ?_⟩
  rw [List.map_cons, List.map_cons, List.map_nil,
    hdelivers.field 3 "id" rfl (by decide) (by decide),
    hdelivers.field 1 "a_b" rfl (by decide) (by decide),
    hdelivers'.field 3 "id" rfl (by decide) (by decide),
    hdelivers'.field 1 "a_b" rfl (by decide) (by decide)]
  rfl

end Engine

end TagScript
