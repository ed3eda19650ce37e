import TagScript.Scope.Lookup
import TagScript.Text.Blank
import TagScript.Text.Word

/-!
# Templates

A template is a text with placeholders: a dotted name between pairs of
braces, with blanks around the name allowed. The first segment of the
name is a variable; the others lead on through map keys and array
indices. A placeholder becomes the text of the value reached and nothing
at all where the way ends early or at null. Braces that make no
placeholder stay as they are.
-/

namespace TagScript.Template

/-- The characters of a placeholder's name after its first. -/
def isNameChar (c : Char) : Bool := Text.isWord c || c == '.'

/-- **The placeholder at the front of some characters**: the name in it,
and the rest after it. -/
def placeholder? : List Char → Option (List Char × List Char)
  | '{' :: '{' :: rest =>
    match rest.dropWhile Text.isBlank with
    | [] => none
    | c :: rest =>
      if !Text.isWordStart c then none
      else
        let name := c :: rest.takeWhile isNameChar
        match (rest.dropWhile isNameChar).dropWhile Text.isBlank with
        | '}' :: '}' :: rest => some (name, rest)
        | _ => none
  | _ => none

/-- A stretch of a template: a character outside placeholders, or a
placeholder. -/
inductive Piece where
  /-- A character that is part of no placeholder. -/
  | char (c : Char)
  /-- A placeholder, by the name in it. -/
  | placeholder (name : List Char)
  deriving DecidableEq, Repr

/-- The pieces of a template; `bound` is at least the number of its
characters. -/
def piecesWithin : (bound : Nat) → List Char → List Piece
  | _, [] => []
  | 0, _ :: _ => []
  | bound + 1, c :: rest =>
    match placeholder? (c :: rest) with
    | some (name, rest) => .placeholder name :: piecesWithin bound rest
    | none => .char c :: piecesWithin bound rest

/-- **The pieces of a template.** -/
def pieces (cs : List Char) : List Piece := piecesWithin cs.length cs

/-- The value that map keys and array indices lead to. -/
def walk? : Value → List String → Option Value
  | value, [] => some value
  | .map entries, key :: path =>
    match Dict.get? entries key with
    | some value => walk? value path
    | none => none
  | .array items, index :: path =>
    match Decimal.index? index with
    | some n =>
      match items[n]? with
      | some value => walk? value path
      | none => none
    | none => none
  | _, _ :: _ => none

/-- The value a dotted name leads to, given the values of variables. -/
def reach? (value? : String → Option Value) (name : String) : Option Value :=
  match Text.segments '.' name with
  | [] => none
  | head :: path => (value? head).bind fun value => walk? value path

/-- What a piece becomes; null has no text. -/
def Piece.filled (value? : String → Option Value) : Piece → String
  | .char c => String.singleton c
  | .placeholder name => ((reach? value? (String.ofList name)).getD .null).text

/-- **A template with its placeholders filled**, given the values of
variables. -/
def render (value? : String → Option Value) (source : String) : String :=
  String.join ((pieces source.toList).map (Piece.filled value?))

/-- The characters of a filled template are those of its pieces. -/
theorem toList_render (value? : String → Option Value) (source : String) :
    (render value? source).toList =
      (pieces source.toList).flatMap fun piece => (piece.filled value?).toList := by
  rw [render, String.toList_join, List.flatMap_map]

end TagScript.Template
