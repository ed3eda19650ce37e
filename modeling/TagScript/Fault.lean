import TagScript.Tag
import TagScript.Value
import TagScript.File.Store
import TagScript.Json.Reader
import TagScript.Markup.Tree

/-!
# Faults

Everything that can go wrong has a cause. A cause has a code, by which
programs tell causes apart, and a message for people; several causes may
share a code. A fault is a cause together with the place in the source it
is charged to, which is that of the innermost tag it was reported at.
-/

namespace TagScript

/-- **What can go wrong.** -/
inductive Cause where
  /-- A tag is nested too deeply. -/
  | tooDeep (depth limit : Nat)
  /-- Nothing knows how to run a tag. -/
  | unknownTag (tag : String)
  /-- A script assigns the variable that holds the privileges. -/
  | reservedVariable (key : String)
  /-- A required attribute is absent or blank. -/
  | attributeMissing (tag attr : String)
  /-- An attribute that means yes or no says neither. -/
  | notBoolean (tag attr text : String)
  /-- A script ends at a tag that failed. -/
  | scriptAborted (child : String)
  /-- A branch ends at a tag that failed. -/
  | branchAborted (tag child : String)
  /-- A branch of a selection failed. -/
  | selectionFailed (branch : String)
  /-- A selection holds something that is not a branch. -/
  | notBranch (child : String)
  /-- A branch of a selection has no condition. -/
  | conditionMissing
  /-- An iteration is asked to compute what it iterates over. -/
  | computedKey
  /-- A variable cannot be iterated over. -/
  | notIterable (key : String) (kind : Kind)
  /-- An assertion has nothing to look at. -/
  | nothingAsserted (tag : String)
  /-- A membership assertion has no candidates. -/
  | noCandidates (tag : String)
  /-- A negation has nothing to negate. -/
  | nothingNegated
  /-- An operator has fewer than two operands. -/
  | operandsMissing (tag : String)
  /-- Two values have no order. -/
  | incomparable (kinds : Value.Incomparable)
  /-- A procedure has no name. -/
  | procedureUnnamed (names : String)
  /-- There is no such procedure. -/
  | procedureUnknown (name : String)
  /-- A scope lacks a privilege. -/
  | privilegeDenied (name : String)
  /-- No privilege is named to be granted. -/
  | noPrivilegeNamed
  /-- A module is not on the search path. -/
  | moduleUnknown (name : String)
  /-- A module failed. -/
  | moduleFailed (path : String)
  /-- An assignment from content has no content. -/
  | assignedContentMissing
  /-- An assignment is asked to compute its value. -/
  | assignedComputation
  /-- An assignment is of a type that there is not. -/
  | assignedType (type : String)
  /-- A text is no number of the kind that is wanted; `none` is an
  attribute without a text. -/
  | notConverted (tag key wanted : String) (text : Option String)
  /-- A reading names no variable and no default. -/
  | nothingRead (tag : String)
  /-- A variable is not a map. -/
  | notMap (key : String) (kind : Kind)
  /-- An index is no integer. -/
  | notIndex (text : String)
  /-- A variable cannot be indexed. -/
  | notIndexable (key : String) (kind : Kind)
  /-- An index lies outside. -/
  | outOfRange (index : Int64) (key : String)
  /-- A file is of a type that is not supported. -/
  | fileType (type : String)
  /-- A file has an encoding that is not supported. -/
  | encoding (name : String)
  /-- An output has neither columns nor a child. -/
  | outputEmpty
  /-- A file is to be opened in a mode that there is not. -/
  | outputMode (mode : String)
  /-- An exception handler has no columns. -/
  | handlerEmpty
  /-- A file cannot be read. -/
  | cannotRead (path : String) (why : Refusal)
  /-- A file cannot be opened for writing. -/
  | cannotOpen (path : String) (why : Refusal)
  /-- A file cannot be written. -/
  | cannotWrite (path : String) (why : Refusal)
  /-- A script cannot be read. -/
  | cannotReadScript (path : String) (why : Refusal)
  /-- A script is not a text. -/
  | scriptNotText (path : String) (index : Nat) (defect : Text.Utf8.Defect)
  /-- A script is not well formed. -/
  | malformedScript
  /-- A variable is not an iterator. -/
  | notIterator (key : String) (kind : Kind)
  /-- A variable is not a text. -/
  | notText (key : String) (kind : Kind)
  /-- A tag that needs a source text has none. -/
  | sourceMissing (tag : String)
  /-- There is no such memory handle. -/
  | handleUnknown (name : String)
  /-- A text is not JSON. -/
  | malformedJson (tag : String)
  /-- A command cannot be started. -/
  | cannotStart (command : String) (why : Refusal)
  /-- An assignment on the command line is none. -/
  | badAssignment (text : String)
  /-- The scripts to check are not in a directory. -/
  | notScriptsDirectory (path : String)
  /-- A fault with words of its own, from outside the library. -/
  | other (code message : String)
  deriving Repr

namespace Cause

/-- **The code of a cause.** -/
def code : Cause → String
  | .tooDeep _ _ => "ENGINE_DEPTH_EXCEEDED"
  | .unknownTag _ => "ENGINE_RUNNER_NOT_FOUND"
  | .reservedVariable _ => "ENGINE_RESERVED_VAR"
  | .attributeMissing _ _ | .notBoolean _ _ _ | .procedureUnnamed _ | .noPrivilegeNamed
  | .nothingRead _ | .notIndex _ | .outputEmpty | .outputMode _ | .handlerEmpty =>
    "ENGINE_ATTR_ILLEGAL"
  | .scriptAborted _ => "ENGINE_SCRIPT_FAILED"
  | .branchAborted _ _ | .selectionFailed _ => "ENGINE_BRANCH_FAILED"
  | .notBranch _ => "ENGINE_CASE_CHILD_ILLEGAL"
  | .conditionMissing => "ENGINE_WHEN_CONDITION_MISSING"
  | .computedKey => "ENGINE_ATTR_UNSUPPORTED"
  | .notIterable _ _ => "ENGINE_VALUE_NOT_ITERABLE"
  | .nothingAsserted _ | .noCandidates _ => "ENGINE_ASSERT_ILLEGAL"
  | .nothingNegated => "ENGINE_NOT_ILLEGAL"
  | .operandsMissing _ => "ENGINE_CONDITION_ILLEGAL"
  | .incomparable _ => "VALUE_NOT_COMPARABLE"
  | .procedureUnknown _ => "ENGINE_PROCEDURE_NOT_FOUND"
  | .privilegeDenied _ => "ENGINE_PRIVILEGE_DENIED"
  | .moduleUnknown _ => "ENGINE_MODULE_NOT_FOUND"
  | .moduleFailed _ => "ENGINE_MODULE_FAILED"
  | .assignedContentMissing => "ENGINE_SET_CONTENT_MISSING"
  | .assignedComputation | .assignedType _ => "ENGINE_SET_TYPE_UNSUPPORTED"
  | .notConverted _ _ _ _ => "ENGINE_VALUE_CONVERT"
  | .notMap _ _ => "ENGINE_VALUE_NOT_MAP"
  | .notIndexable _ _ => "ENGINE_VALUE_NOT_INDEXABLE"
  | .outOfRange _ _ => "ENGINE_INDEX_OUT_OF_RANGE"
  | .fileType _ => "ENGINE_FILE_TYPE_UNSUPPORTED"
  | .encoding _ => "ENGINE_ENCODING_UNSUPPORTED"
  | .cannotRead _ _ | .cannotReadScript _ _ => "IO_READ"
  | .cannotOpen _ _ | .cannotWrite _ _ => "IO_WRITE"
  | .scriptNotText _ _ _ => "IO_DECODE"
  | .malformedScript => "XML_PARSE_ERROR"
  | .notIterator _ _ => "ENGINE_VALUE_NOT_ITERATOR"
  | .notText _ _ => "ENGINE_VALUE_NOT_STRING"
  | .sourceMissing _ => "ENGINE_SOURCE_MISSING"
  | .handleUnknown _ => "ENGINE_HANDLE_NOT_FOUND"
  | .malformedJson _ => "JSON_PARSE"
  | .cannotStart _ _ => "IO_SPAWN"
  | .badAssignment _ => "CLI_SET_INVALID"
  | .notScriptsDirectory _ => "CLI_SOURCE_NOT_DIR"
  | .other code _ => code

/-- **The message of a cause.** -/
def message : Cause → String
  | .tooDeep depth limit => s!"Tag depth {depth} exceeds the limit of {limit}."
  | .unknownTag tag => s!"No runner is registered for tag \"{tag}\"."
  | .reservedVariable key => s!"Variable \"{key}\" cannot be assigned by scripts."
  | .attributeMissing tag attr =>
    s!"Tag \"{tag}\" requires a non-empty \"{attr}\" attribute."
  | .notBoolean tag attr text =>
    s!"Attribute \"{attr}\" of tag \"{tag}\" expects a boolean, got \"{text}\"."
  | .scriptAborted child => s!"Script aborted at tag \"{child}\"."
  | .branchAborted tag child => s!"Tag \"{child}\" failed inside \"{tag}\"."
  | .selectionFailed branch => s!"Branch \"{branch}\" of \"case\" failed."
  | .notBranch child =>
    s!"Only \"when\" and \"when_others\" may appear in \"case\", found \"{child}\"."
  | .conditionMissing =>
    "\"when\" needs an \"_assert\" attribute or a condition as its first tag."
  | .computedKey =>
    "Attribute \"key_eval\" is not supported; bind the value with \"key\" instead."
  | .notIterable key kind =>
    s!"Variable \"{key}\" holds a {kind.name} which cannot be iterated."
  | .nothingAsserted tag => s!"\"{tag}\" needs a \"key\" attribute or child tags."
  | .noCandidates tag => s!"\"{tag}\" needs candidate values as child tags."
  | .nothingNegated => "\"not\" needs a child tag to negate."
  | .operandsMissing tag =>
    s!"\"{tag}\" needs \"key1\" and \"key2\" or at least two child tags."
  | .incomparable kinds => s!"Cannot compare {kinds.left.name} with {kinds.right.name}."
  | .procedureUnnamed names => s!"Procedure name \"{names}\" is illegal."
  | .procedureUnknown name => s!"Procedure \"{name}\" is not defined."
  | .privilegeDenied name => s!"\"{name}\" is not granted in this scope."
  | .noPrivilegeNamed => "\"procedure_privilege\" requires at least one name."
  | .moduleUnknown name => s!"Module \"{name}\" was not found on the search path."
  | .moduleFailed path => s!"Module \"{path}\" failed to run."
  | .assignedContentMissing =>
    "\"set\" of type \"object\" needs a child tag producing the value."
  | .assignedComputation => "\"set\" of type \"eval\" is not supported."
  | .assignedType type => s!"Unknown \"set\" type \"{type}\"."
  | .notConverted tag key wanted text =>
    let shown := text.getD "None"
    s!"\"{key}\" of \"{tag}\" is not {wanted}: \"{shown}\"."
  | .nothingRead tag => s!"\"{tag}\" requires a \"key\" or a \"defvalue\"."
  | .notMap key kind => s!"Variable \"{key}\" holds a {kind.name}, not a map."
  | .notIndex text => s!"Index \"{text}\" is not an integer."
  | .notIndexable key kind =>
    s!"Variable \"{key}\" holds a {kind.name} which cannot be indexed."
  | .outOfRange index key =>
    let shown := String.ofList (Decimal.signed index.toInt)
    s!"Index {shown} is out of range for \"{key}\"."
  | .fileType type => s!"File type \"{type}\" is not supported."
  | .encoding name => s!"Encoding \"{name}\" is not supported; files are read as UTF-8."
  | .outputEmpty => "\"output\" needs \"cols\" or a child tag producing the data."
  | .outputMode mode => s!"Output mode \"{mode}\" must be \"a\" or \"w\"."
  | .handlerEmpty => "\"handle_exceptions\" needs \"cols\" or debug=\"true\"."
  | .cannotRead path why => s!"Cannot read \"{path}\": {why.message}"
  | .cannotOpen path why => s!"Cannot open \"{path}\" for writing: {why.message}"
  | .cannotWrite path why => s!"Cannot write \"{path}\": {why.message}"
  | .cannotReadScript path why => s!"Cannot read script \"{path}\": {why.message}"
  | .scriptNotText path index defect =>
    let what := defect.message index
    s!"Script \"{path}\" is not valid UTF-8: {what}"
  | .malformedScript => Markup.refusal
  | .notIterator key kind => s!"Variable \"{key}\" holds a {kind.name}, not an iterator."
  | .notText key kind => s!"Variable \"{key}\" holds a {kind.name}, not text."
  | .sourceMissing tag =>
    s!"\"{tag}\" needs \"key\", \"content\", \"_from_file\" or inline text."
  | .handleUnknown name => s!"No handle named \"{name}\" is registered."
  | .malformedJson tag => s!"\"{tag}\" could not parse JSON: {Json.refusal}"
  | .cannotStart command why => s!"Cannot start \"{command}\": {why.message}"
  | .badAssignment text => s!"Expected key=value, found \"{text}\"."
  | .notScriptsDirectory path => s!"Scripts dir \"{path}\" is not a directory."
  | .other _ message => message

end Cause

/-- **A fault**: a cause and the place it is charged to, once it has
one. -/
structure Fault where
  /-- What went wrong. -/
  cause : Cause
  /-- Where. -/
  span : Option Span
  deriving Repr

namespace Fault

/-- A fault that is not charged to a place yet. -/
def of (cause : Cause) : Fault := ⟨cause, none⟩

/-- A fault charged to a place, unless it has been charged to one
already. -/
def chargedTo (f : Fault) (span : Span) : Fault := { f with span := some (f.span.getD span) }

/-- A fault in one line: its code and its message. -/
def describe (f : Fault) : String := f.cause.code ++ ": " ++ f.cause.message

end Fault

end TagScript
