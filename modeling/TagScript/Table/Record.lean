import TagScript.Text.Blank

/-!
# Delimited records

Tables are kept as comma-separated text. A record is a list of fields. A
field that holds a comma, a quotation mark or a line end is written
between quotation marks, a quotation mark in it being written twice, and
the record that consists of one empty field is written as two quotation
marks, because an empty line is no record.

Reading is lenient: a record ends at a carriage return or a line feed,
empty lines are passed over, a quotation mark counts only where a field
begins, what follows a closing quotation mark up to the comma belongs to
the field, and an unclosed quotation mark runs to the end of the text.
-/

namespace TagScript.Table

/-- A record: its fields. -/
abbrev Record := List String

/-! ## Writing -/

/-- What ends a written record. -/
inductive Ending where
  /-- A carriage return and a line feed. -/
  | crlf
  /-- A line feed. -/
  | lf
  /-- A carriage return. -/
  | cr
  deriving DecidableEq, Repr

/-- The characters of an ending. -/
def Ending.chars : Ending → List Char
  | .crlf => ['\r', '\n']
  | .lf => ['\n']
  | .cr => ['\r']

/-- The characters that make a field be quoted. -/
def needsQuotes (c : Char) : Bool := c == ',' || c == '"' || c == '\r' || c == '\n'

/-- The written form of a field. -/
def writeField (s : String) : List Char :=
  if s.toList.any needsQuotes then
    '"' :: s.toList.flatMap (fun c => if c = '"' then ['"', '"'] else [c]) ++ ['"']
  else s.toList

/-- The fields of a record with commas between them. -/
def writeFields : Record → List Char
  | [] => []
  | [field] => writeField field
  | field :: rest => writeField field ++ ',' :: writeFields rest

/-- **The written form of a record.** -/
def writeRecord (ending : Ending) (record : Record) : List Char :=
  let fields := writeFields record
  (if fields.isEmpty then ['"', '"'] else fields) ++ ending.chars

/-- The written form of some records. -/
def writeRecords (ending : Ending) (records : List Record) : String :=
  String.ofList (records.flatMap (writeRecord ending))

/-! ## Reading -/

/-- Where the reader stands. -/
inductive Mode where
  /-- Before a record. -/
  | between
  /-- Before a field of a record. -/
  | fieldStart
  /-- Inside a field, outside quotation marks. -/
  | plain
  /-- Inside quotation marks. -/
  | quoted
  /-- After a quotation mark inside quotation marks: it closes them, or a
  second one makes it a character of the field. -/
  | quoteSeen
  deriving DecidableEq, Repr

/-- The characters that end a record. -/
def isLineEnd (c : Char) : Bool := c == '\n' || c == '\r'

/-- The reader's state: where it stands, the field it is in and the fields
before it in the record, both from their ends. -/
structure Reading where
  /-- Where it stands. -/
  mode : Mode
  /-- The characters of the field so far, from the end. -/
  field : List Char
  /-- The finished fields of the record, from the end. -/
  fields : List String
  deriving Repr

/-- Before the first record. -/
def Reading.initial : Reading := ⟨.between, [], []⟩

/-- The record finished with the field at hand. -/
def Reading.record (r : Reading) : Record := (String.ofList r.field.reverse :: r.fields).reverse

/-- The reading after a comma. -/
def Reading.comma (r : Reading) : Reading :=
  ⟨.fieldStart, [], String.ofList r.field.reverse :: r.fields⟩

/-- The reading after a character of the field. -/
def Reading.take (r : Reading) (mode : Mode) (c : Char) : Reading :=
  { r with mode, field := c :: r.field }

/-- The reading after a character outside quotation marks. -/
def Reading.outside (r : Reading) (c : Char) : Option Record × Reading :=
  if c = ',' then (none, r.comma)
  else if isLineEnd c then (some r.record, .initial)
  else (none, r.take .plain c)

/-- **One character read**, with the record it finishes. -/
def Reading.step (r : Reading) (c : Char) : Option Record × Reading :=
  match r.mode with
  | .between =>
    if isLineEnd c then (none, r)
    else if c = '"' then (none, { r with mode := .quoted })
    else r.outside c
  | .fieldStart => if c = '"' then (none, { r with mode := .quoted }) else r.outside c
  | .plain => r.outside c
  | .quoted => if c = '"' then (none, { r with mode := .quoteSeen }) else (none, r.take .quoted c)
  | .quoteSeen => if c = '"' then (none, r.take .quoted c) else r.outside c

/-- The records of the characters that are left. -/
def Reading.records : Reading → List Char → List Record
  | r, [] => if r.mode = .between then [] else [r.record]
  | r, c :: rest =>
    match r.step c with
    | (some record, r) => record :: r.records rest
    | (none, r) => r.records rest

/-- **The records of a text.** -/
def records (s : String) : List Record := Reading.initial.records s.toList

/-- How many lines a text has, a line ending at a line feed only; what
follows the last line feed is a line if it is not empty. -/
def lineCount (s : String) : Nat :=
  let pieces := Text.splitChars '\n' s.toList
  if pieces.getLast? = some [] then pieces.length - 1 else pieces.length

example : records "a,\"b\"\"c\",\r\n\n\"x\ny\"z\n,\n" = [["a", "b\"c", ""], ["x\nyz"], ["", ""]] := by
  decide +kernel
example : writeRecords .crlf [["a", "b\"c"], [""], ["", "x\ny"]] =
    "a,\"b\"\"c\"\r\n\"\"\r\n,\"x\ny\"\r\n" := by decide +kernel

end TagScript.Table
