import TagScript.Builtin
import TagScript.Check
import TagScript.Command
import TagScript.CommandLine
import TagScript.Dict
import TagScript.Engine.Access
import TagScript.Engine.Attribute
import TagScript.Engine.Execute
import TagScript.Engine.Run
import TagScript.Engine.World
import TagScript.Fault
import TagScript.File.Lock
import TagScript.File.Path
import TagScript.File.Store
import TagScript.File.System
import TagScript.Json.Reader
import TagScript.Json.Writer
import TagScript.Markup.Character
import TagScript.Markup.Token
import TagScript.Markup.Tree
import TagScript.Number.Binary64
import TagScript.Number.Decimal
import TagScript.Runner.Assertion
import TagScript.Runner.Assignment
import TagScript.Runner.Block
import TagScript.Runner.Choice
import TagScript.Runner.Command
import TagScript.Runner.Comparison
import TagScript.Runner.Document
import TagScript.Runner.Instrument
import TagScript.Runner.Procedure
import TagScript.Runner.Table
import TagScript.Scope.Lookup
import TagScript.Scope.Privilege
import TagScript.Scope.Reserved
import TagScript.Scope.Template
import TagScript.Script
import TagScript.Session
import TagScript.Table.Record
import TagScript.Table.Sheet
import TagScript.Tag
import TagScript.Text.Blank
import TagScript.Text.Quoted
import TagScript.Text.Utf8
import TagScript.Text.Word
import TagScript.Value
import TagScript.Value.Items
import TagScript.Value.Text
import TagScript.Main
import TagScript.Proofs.Act
import TagScript.Proofs.Logic
import TagScript.Proofs.Journal
import TagScript.Proofs.Language
import TagScript.Proofs.Conduct
import TagScript.Proofs.Privilege
import TagScript.Proofs.Termination
import TagScript.Proofs.Isolation
import TagScript.Proofs.Pass
import TagScript.Proofs.Break
import TagScript.Proofs.Substitution
import TagScript.Proofs.Finiteness
import TagScript.Proofs.Json
import TagScript.Proofs.Storage
import TagScript.Proofs.Reading
import TagScript.Proofs.Document
import TagScript.Proofs.Records
import TagScript.Proofs.Rounds
import TagScript.Proofs.Sheet
import TagScript.Proofs.Loading
import TagScript.Proofs.Nesting
import TagScript.Proofs.Limit
import TagScript.Proofs.Checked
import TagScript.Proofs.Retention
import TagScript.Proofs.Leaf
import TagScript.Proofs.Asking
import TagScript.Proofs.Atomicity
import TagScript.Proofs.Cursor
import TagScript.Proofs.Globals
import TagScript.Proofs.Likeness
import TagScript.Proofs.Accord
import TagScript.Proofs.Mirroring
import TagScript.Proofs.Answering
import TagScript.Proofs.Layout
import TagScript.Proofs.Recording
import TagScript.Proofs.Apart
import TagScript.Proofs.Handling
import TagScript.Proofs.Veil
import TagScript.Proofs.Comparison
import TagScript.Proofs.Delivery
import TagScript.Proofs.Aftermath
import TagScript.Proofs.Registry
import TagScript.Proofs.Upholding
import TagScript.Proofs.Sharing
import TagScript.Proofs.Counting
import TagScript.Proofs.Sequence
import TagScript.Proofs.Operands
import TagScript.Proofs.Ordering
import TagScript.Proofs.Selection
import TagScript.Proofs.Alternative
import TagScript.Proofs.Simultaneity
import TagScript.Proofs.Iteration
import TagScript.Proofs.Drawing
import TagScript.Proofs.Complement
import TagScript.Proofs.Idempotence
import TagScript.Proofs.Placeholder
import TagScript.Proofs.Verdict
import TagScript.Proofs.Numbering
import TagScript.Proofs.Maximum
import TagScript.Proofs.Depth
import TagScript.Proofs.Route
import TagScript.Proofs.Inspection
import TagScript.Proofs.Granting
import TagScript.Proofs.Locking
import TagScript.Proofs.OrderlyRun
