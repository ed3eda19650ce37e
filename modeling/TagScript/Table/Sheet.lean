import TagScript.Scope.Lookup
import TagScript.Scope.Reserved
import TagScript.Table.Record

/-!
# Sheets

A sheet is a table whose first record names its columns. A row of a sheet
is a dictionary of variables: one for every column, without those that
would bind a reserved variable. A record whose first field is blank is no
row.

Beside the rows a sheet has a count, the number of lines after the first.
It is taken from the text and not from the records, so it counts blank
lines and lines inside quotation marks too, and does not count a line that
ends with a mere carriage return.
-/

namespace TagScript.Table

/-- How fields are read. -/
structure FieldPolicy where
  /-- Whether the blanks around a field are cut off. -/
  strip : Bool
  /-- Whether a field that is not there is null instead of empty. -/
  nullable : Bool
  deriving DecidableEq, Repr

/-- The value of a field. -/
def FieldPolicy.value (policy : FieldPolicy) : Option String → Value
  | none => if policy.nullable then .null else .str ""
  | some s => .str (if policy.strip then Text.trim s else s)

/-- **A sheet.** -/
structure Sheet where
  /-- The columns. -/
  columns : List String
  /-- The rows. -/
  rows : List Vars
  /-- How many lines follow the first. -/
  count : Nat

namespace Sheet

/-- The name of a column; a comma would divide it in a list of columns. -/
def columnName (heading : String) : String := Text.replaceChar heading ',' "_"

/-- Whether a record is a row. -/
def isRow (record : Record) : Bool :=
  match record with
  | [] => false
  | field :: _ => !Text.isAllBlank field

/-- The columns, each with the field of a record that stands in it, if there
is one. -/
def aligned : List String → Record → List (String × Option String)
  | [], _ => []
  | name :: names, [] => (name, none) :: aligned names []
  | name :: names, field :: fields => (name, some field) :: aligned names fields

/-- The row of a record. -/
def row (policy : FieldPolicy) (columns : List String) (record : Record) : Vars :=
  Dict.ofList (((aligned columns record).filter fun (name, _) => !Reserved.isReserved name).map
    fun (name, field) => (name, policy.value field))

/-- **A column has the field that stands at its own place in the record.** -/
theorem getElem?_aligned (columns : List String) (record : Record) (n : Nat) :
    (aligned columns record)[n]? = columns[n]?.map fun name => (name, record[n]?) := by
  induction columns generalizing record n with
  | nil => rfl
  | cons name names ih =>
    cases record <;> cases n <;> simp [aligned, ih]

/-- **The sheet a text spells.** -/
def ofText (policy : FieldPolicy) (source : String) : Sheet :=
  let (headings, body) := match records source with
    | [] => ([], [])
    | headings :: body => (headings, body)
  let columns := headings.map columnName
  { columns
    rows := (body.filter isRow).map (row policy columns)
    count := lineCount source - 1 }

end Sheet

/-- **The variables a table without headings spells**: a name and a value
in each record. Records without a name and records that name a reserved
variable are passed over. -/
def assignments (policy : FieldPolicy) (source : String) : List (String × Value) :=
  (records source).filterMap fun record =>
    let name := Text.trim (record.head?.getD "")
    if name.isEmpty || Reserved.isReserved name then none
    else some (name, policy.value record[1]?)

end TagScript.Table
