import TagScript.Engine.Access
import TagScript.Runner.Block
import TagScript.Table.Sheet

/-!
# Tables in and out

Variables are loaded from a table, a block is run once for every row of a
sheet, a row of variables is added to a table, and faults are recorded in
one.

A block that runs over a sheet sees the columns of the row as local
variables and beside them how many lines there are, which row this is and
what the columns are. The number of the row only ever grows: if a greater
one is there already it stays.
-/

namespace TagScript

namespace Run

/-- How a tag wants fields to be read. -/
def fieldPolicy (tag : Tag) : Run Table.FieldPolicy := do
  let strip ← attrSwitch tag "auto_strip" true
  let nullable ← attrSwitch tag "allow_none" false
  pure ⟨strip, nullable⟩

end Run

namespace Runner

/-- **Variables from a table** of names and values. -/
def loadVariables : Runner := fun site => do
  Run.checkTableType site.tag
  Run.checkEncoding site.tag
  let policy ← Run.fieldPolicy site.tag
  let name ← Run.requireKey site.tag "name"
  let source ← Run.readFile name
  Run.change fun s =>
    { s with locals := s.locals.insertAll (Table.assignments policy source) }
  pure .ok

/-- **The number of a row as the block sees it**, given what is there
already. -/
def rowNumber (current : Option Value) (n : Int64) : Value :=
  match current with
  | some (.int m) => if m < n then .int n else .int m
  | _ => .int n

/-- The local variables in which the block runs for a row. -/
def rowScope (columns : List String) (row : Vars) (n : Nat) (locals : Vars) : Vars :=
  let locals := locals.insertAll row
  let index := rowNumber (locals.get? Reserved.loadedDataItemIndex) (Int64.ofNat n)
  (locals.insert Reserved.loadedDataItemIndex index).insert
    Reserved.loadedDataCols (.str (Text.joinWith "," columns))

/-- **A block for every row of a sheet**, up to the row in which a tag
yields false. -/
def loadSheet : Runner := fun site => do
  Run.checkTableType site.tag
  Run.checkEncoding site.tag
  let shared ← Run.passThrough site.tag
  let policy ← Run.fieldPolicy site.tag
  let name ← Run.requireKey site.tag "name"
  let sheet := Table.Sheet.ofText policy (← Run.readFile name)
  Run.setLocal Reserved.loadedDataCount (.int (Int64.ofNat sheet.count))
  Run.forEach (fun (row, n) => Run.within shared do
    Run.change fun s => { s with locals := rowScope sheet.columns row (n + 1) s.locals }
    site.completes) sheet.rows.zipIdx
  Run.eraseLocal Reserved.loadedDataCount
  pure .ok

/-! ## Writing -/

/-- The mode an attribute names: any text with an `a` in it appends, any
other with a `w` in it truncates. -/
def writeMode? (mode : String) : Option Files.WriteMode :=
  if mode.toList.contains 'a' then some .append
  else if mode.toList.contains 'w' then some .truncate
  else none

/-- How a tag wants its file to be opened. -/
def outputMode (tag : Tag) (default : Files.WriteMode) : Run Files.WriteMode := do
  let mode ← Run.attrKey tag "mode"
  if mode.isEmpty then pure default
  else
    match writeMode? mode with
    | some mode => pure mode
    | none => Run.fail (.outputMode mode)

/-- What a tag wants lines to end with, its escapes resolved. -/
def lineEnd? (s : Frame) (tag : Tag) : Option String :=
  (s.attrText tag "newline").map fun text =>
    String.ofList (Text.replacePair '\\' 'n' '\n' (Text.replacePair '\\' 'r' '\r' text.toList))

/-- What records end with where lines end like this. -/
def recordEnding (lineEnd : Option String) : Table.Ending :=
  if lineEnd = some "\n" then .lf else if lineEnd = some "\r" then .cr else .crlf

/-- **An output**: the text of what the first tag inside yields, or else a
row of variables, after a row of headings if the file is empty. -/
def output : Runner := fun site => do
  Run.checkEncoding site.tag
  let name ← Run.requireKey site.tag "name"
  let path ← Run.outputPath name
  let lineEnd ← Run.look (lineEnd? · site.tag)
  match site.tag.firstTag? with
  | some child =>
    let data := (← site.run child).toValue.text
    let data := lineEnd.elim data (Text.replaceChar data '\n')
    let mode ← outputMode site.tag .truncate
    Run.writeFile mode path (fun _ => data) .cannotOpen
    pure .ok
  | none =>
    Run.checkTableType site.tag
    let columns := Text.names (← Run.attrKey site.tag "cols")
    if columns.isEmpty then Run.fail .outputEmpty
    else do
      let mode ← outputMode site.tag .append
      let row ← Run.look fun s => columns.map fun column => (s.read column).text
      Run.writeFile mode path (fun before =>
        Table.writeRecords (recordEnding lineEnd) (if before.isEmpty then [columns, row] else [row]))
        .cannotOpen
      pure .ok

/-- **The installation of an exception handler.** -/
def handleExceptions : Runner := fun site => do
  Run.checkTableType site.tag
  let name ← Run.requireKey site.tag "name"
  let named := Text.names (← Run.attrKey site.tag "cols")
  let debug ← Run.attrSwitch site.tag "debug" false
  let columns := if debug then named ++ [Reserved.debug] else named
  if columns.isEmpty then Run.fail .handlerEmpty
  else do
    let path ← Run.outputPath name
    let id ← Run.look (·.world.handlers)
    Run.changeWorld fun w => { w with handlers := w.handlers + 1 }
    Run.setLocal Reserved.exceptionsHandler (.handler ⟨id, path, columns⟩)
    pure .ok

end Runner

end TagScript
