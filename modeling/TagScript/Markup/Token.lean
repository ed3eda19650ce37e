import TagScript.Markup.Character
import TagScript.Text.Blank

/-!
# Tokens of a markup document

A document is cut into tokens: start tags with their attributes, end
tags, stretches of text, literal sections, and asides – comments and
processing instructions – which only separate texts. Each token is kept
with the characters it was read from, so that places in the source follow
from the characters before them.

Readers move a cursor on, or refuse. A cursor holds what has been taken as
well as what lies ahead, so that the characters of a token are at hand
when the token has been read. A type declaration is refused everywhere, so
a document has no entities but the five that every document has.
-/

namespace TagScript.Markup

/-- **A qualified name**: the name, and the qualifier in front of the
colon, which is empty where there is none. -/
structure QName where
  /-- What stands before the colon. -/
  qualifier : String
  /-- What stands after it. -/
  base : String
  deriving DecidableEq, Repr

/-- A part of a document. -/
inductive Token where
  /-- A start tag; `closed` is set where it ends the element as well. -/
  | start (name : QName) (attrs : List (QName × String)) (closed : Bool)
  /-- An end tag. -/
  | stop (name : QName)
  /-- Text between tags, references resolved. -/
  | text (cs : List Char)
  /-- A literal section. -/
  | literal (cs : List Char)
  /-- A comment or a processing instruction. -/
  | aside
  deriving Repr

/-- A token with the characters it was read from. -/
structure Lexeme where
  /-- The token. -/
  token : Token
  /-- Its characters. -/
  source : List Char
  deriving Repr

/-! ## Cursors -/

/-- **A place between the characters of a text.** -/
structure Cursor where
  /-- The characters taken, from the last to the first. -/
  taken : List Char
  /-- The characters that lie ahead. -/
  ahead : List Char
  deriving Repr

namespace Cursor

/-- The cursor in front of a text. -/
def start (cs : List Char) : Cursor := ⟨[], cs⟩

/-- The characters taken, in their order. -/
def source (c : Cursor) : List Char := c.taken.reverse

/-- The cursor `n` characters on. -/
def skip (c : Cursor) (n : Nat) : Cursor :=
  ⟨(c.ahead.take n).reverse ++ c.taken, c.ahead.drop n⟩

/-- The cursor after all characters at its front of which `p` holds. -/
def skipWhile (c : Cursor) (p : Char → Bool) : Cursor :=
  ⟨(c.ahead.takeWhile p).reverse ++ c.taken, c.ahead.dropWhile p⟩

/-- The cursor after the blanks ahead. -/
def skipSpaces (c : Cursor) : Cursor := c.skipWhile isSpace

/-- Whether a word lies right ahead. -/
def sees (c : Cursor) (word : String) : Bool := word.toList.isPrefixOf c.ahead

/-- Whether the next character satisfies `p`. -/
def nextIs (c : Cursor) (p : Char → Bool) : Bool := c.ahead.head?.any p

end Cursor

/-! ## Small readers -/

/-- The cursor after a word that has to lie right ahead. -/
def expect (word : String) (c : Cursor) : Option Cursor :=
  if c.sees word then some (c.skip word.length) else none

/-- Characters up to where `stop` holds of what is left, all of which have
to be document characters, and what is left. -/
def charsUntil (stop : List Char → Bool) : List Char → Option (List Char × List Char)
  | [] => some ([], [])
  | c :: rest =>
    if !isDocumentChar c then none
    else if stop (c :: rest) then some ([], c :: rest)
    else (charsUntil stop rest).map fun (cs, rest) => (c :: cs, rest)

/-- **The document characters up to where `stop` holds of what is left.** -/
def readUntil (stop : List Char → Bool) (c : Cursor) : Option (List Char × Cursor) :=
  (charsUntil stop c.ahead).map fun (cs, rest) => (cs, ⟨cs.reverse ++ c.taken, rest⟩)

/-- Characters up to a word, the cursor after the word. -/
def readThrough (word : String) (c : Cursor) : Option (List Char × Cursor) :=
  let marks := word.toList
  match readUntil (fun cs => marks.isPrefixOf cs) c with
  | none => none
  | some (body, c) => (expect word c).map fun c => (body, c)

/-- Whether a word stands somewhere in some characters. -/
def occurs (word : List Char) : List Char → Bool
  | [] => word.isEmpty
  | c :: rest => word.isPrefixOf (c :: rest) || occurs word rest

/-- Whether characters begin as a name does. -/
def beginsName (cs : List Char) : Bool := cs.head?.any isNameStart

/-- The cursor after a name, with or without a colon. -/
def skipName (c : Cursor) : Option Cursor :=
  if beginsName c.ahead then some (c.skipWhile isNameChar) else none

/-- A name with at most one colon, whose two parts both begin as names do;
the qualifier may be empty, the name may not. -/
def readQName (c : Cursor) : Option (QName × Cursor) :=
  let rest := c.skipWhile isNameChar
  match Text.splitChars ':' (c.ahead.takeWhile isNameChar) with
  | [base] => if beginsName base then some (⟨"", String.ofList base⟩, rest) else none
  | [qualifier, base] =>
    if (qualifier.isEmpty || beginsName qualifier) && beginsName base
      then some (⟨String.ofList qualifier, String.ofList base⟩, rest) else none
  | _ => none

/-! ## References -/

/-- The number that digits of a base spell. -/
def numberIn (base : Nat) (digit? : Char → Option Nat) (cs : List Char) : Option Nat :=
  if cs.isEmpty then none
  else cs.foldl (fun n c => match n, digit? c with
    | some n, some d => some (n * base + d)
    | _, _ => none) (some 0)

/-- The value of a decimal digit. -/
def decimalDigit? (c : Char) : Option Nat :=
  if '0' ≤ c ∧ c ≤ '9' then some (c.toNat - '0'.toNat) else none

/-- The value of a digit in base sixteen. -/
def hexDigit? (c : Char) : Option Nat :=
  if 'a' ≤ c ∧ c ≤ 'f' then some (c.toNat - 'a'.toNat + 10)
  else if 'A' ≤ c ∧ c ≤ 'F' then some (c.toNat - 'A'.toNat + 10)
  else decimalDigit? c

/-- The character of a code point below `2 ^ 32`; a code point that no
character has stands for the replacement character. -/
def charOf? (n : Nat) : Option Char :=
  if 0x100000000 ≤ n then none
  else
    let c := if n.isValidChar then Char.ofNat n else Char.ofNat 0xFFFD
    if isDocumentChar c then some c else none

/-- **The character a reference names**, from what stands between the
ampersand and the semicolon. -/
def referred? : List Char → Option Char
  | '#' :: 'x' :: digits => (numberIn 16 hexDigit? digits).bind charOf?
  | '#' :: digits => (numberIn 10 decimalDigit? digits).bind charOf?
  | name =>
    if name = "quot".toList then some '"'
    else if name = "amp".toList then some '&'
    else if name = "apos".toList then some '\''
    else if name = "lt".toList then some '<'
    else if name = "gt".toList then some '>'
    else none

/-- A character of a text as it was written. -/
inductive Written where
  /-- Written as itself. -/
  | plain (c : Char)
  /-- Written by a reference. -/
  | referred (c : Char)
  deriving DecidableEq, Repr

/-- The characters of a text with its references resolved; there are at
most as many as `bound`. -/
def resolve : (bound : Nat) → List Char → Option (List Written)
  | _, [] => some []
  | 0, _ :: _ => none
  | bound + 1, c :: rest =>
    if c = '&' then
      match rest.dropWhile (· != ';') with
      | [] => none
      | _ :: rest' =>
        match referred? (rest.takeWhile (· != ';')) with
        | none => none
        | some c => (resolve bound rest').map (.referred c :: ·)
    else (resolve bound rest).map (.plain c :: ·)

/-- **The value of an attribute**: every written line end and tab is a
space, and what a reference names is kept. -/
def attributeValue : List Written → List Char
  | [] => []
  | .plain '\r' :: .plain '\n' :: rest => ' ' :: attributeValue rest
  | .plain c :: rest => (if c = '\n' ∨ c = '\r' ∨ c = '\t' then ' ' else c) :: attributeValue rest
  | .referred c :: rest => c :: attributeValue rest

/-- One more character of a text whose line ends become line feeds, the
text so far given from its end. -/
def pushLine (soFar : List Char) (c : Char) (last : Bool) : List Char :=
  match soFar with
  | '\r' :: before =>
    if last && c == '\r' then '\n' :: '\n' :: before
    else if c == '\n' then '\n' :: before
    else c :: '\n' :: before
  | _ => if last && c == '\r' then '\n' :: soFar else c :: soFar

/-- **A text with its line ends as line feeds.** What a reference names is
kept, and so is the one character after it, which `kept` tells. -/
def textValue (soFar : List Char) (kept : Bool) : List Written → List Char
  | [] => soFar.reverse
  | .referred c :: rest => textValue (c :: soFar) true rest
  | .plain c :: rest =>
    if kept then textValue (c :: soFar) false rest
    else textValue (pushLine soFar c rest.isEmpty) false rest

/-! ## Tokens -/

/-- A name, an equals sign and a quoted value without `<`; the value is not
resolved yet. -/
def readAttribute (c : Cursor) : Option ((QName × List Char) × Cursor) :=
  match readQName c with
  | none => none
  | some (name, c) =>
    match expect "=" c.skipSpaces with
    | none => none
    | some c =>
      let c := c.skipSpaces
      match c.ahead with
      | q :: _ =>
        if q = '"' ∨ q = '\'' then
          match readUntil (fun cs => cs.head?.any fun d => d == q || d == '<') (c.skip 1) with
          | none => none
          | some (value, c) =>
            if c.nextIs (· == q) then some ((name, value), c.skip 1) else none
        else none
      | [] => none

/-- The attributes of a start tag up to its end, fewer than `bound`, and
whether the tag closes its element. Each attribute has a blank in
front. -/
def readAttributes :
    (bound : Nat) → Cursor → Option ((List (QName × String) × Bool) × Cursor)
  | 0, _ => none
  | bound + 1, c =>
    let next := c.skipSpaces
    if next.sees "/>" then some (([], true), next.skip 2)
    else if next.sees ">" then some (([], false), next.skip 1)
    else if !c.nextIs isSpace then none
    else
      match readAttribute next with
      | none => none
      | some ((name, value), c) =>
        match resolve value.length value, readAttributes bound c with
        | some written, some ((attrs, closed), c) =>
          some (((name, String.ofList (attributeValue written)) :: attrs, closed), c)
        | _, _ => none

/-- A start tag with fewer attributes than `bound`, from after its `<`. -/
def readStart (bound : Nat) (c : Cursor) : Option (Token × Cursor) :=
  match readQName c with
  | none => none
  | some (name, c) =>
    (readAttributes bound c).map fun ((attrs, closed), c) => (.start name attrs closed, c)

/-- An end tag, from after its `</`. -/
def readStop (c : Cursor) : Option (Token × Cursor) :=
  match readQName c with
  | none => none
  | some (name, c) => (expect ">" c.skipSpaces).map fun c => (.stop name, c)

/-- A comment, from after its opening: it holds no two hyphens in a row and
does not end with one. -/
def readComment (c : Cursor) : Option (Token × Cursor) :=
  match readThrough "-->" c with
  | none => none
  | some (body, c) =>
    if occurs ['-', '-'] body || body.getLast? == some '-' then none else some (.aside, c)

/-- A processing instruction, from after its opening. A document's
declaration is none. -/
def readInstruction (c : Cursor) : Option (Token × Cursor) :=
  if c.sees "xml " then none
  else
    match skipName c with
    | none => none
    | some c => (readThrough "?>" c.skipSpaces).map fun (_, c) => (.aside, c)

/-- A literal section, from after its opening. -/
def readLiteral (c : Cursor) : Option (Token × Cursor) :=
  (readThrough "]]>" c).map fun (body, c) =>
    (.literal (textValue [] false (body.map .plain)), c)

/-- A stretch of text up to the next `<`; it may not show the end of a
literal section. -/
def readText (c : Cursor) : Option (Token × Cursor) :=
  match readUntil (fun cs => cs.head? == some '<') c with
  | none => none
  | some (body, c) =>
    if occurs [']', ']', '>'] body then none
    else (resolve body.length body).map fun written => (.text (textValue [] false written), c)

/-- **One token**; a start tag may have fewer attributes than `bound`. -/
def readToken (bound : Nat) (c : Cursor) : Option (Token × Cursor) :=
  match c.ahead with
  | '<' :: '!' :: '-' :: '-' :: _ => readComment (c.skip 4)
  | '<' :: '!' :: _ => (expect "<![CDATA[" c).bind readLiteral
  | '<' :: '?' :: _ => readInstruction (c.skip 2)
  | '<' :: '/' :: _ => readStop (c.skip 2)
  | '<' :: _ => readStart bound (c.skip 1)
  | _ => readText c

/-- **The tokens of a text**, whose characters are no more than `bound`. -/
def lexemes : (bound : Nat) → List Char → Option (List Lexeme)
  | _, [] => some []
  | 0, _ :: _ => none
  | bound + 1, ch :: rest =>
    match readToken (bound + 1) (.start (ch :: rest)) with
    | none => none
    | some (token, c) => (lexemes bound c.ahead).map (⟨token, c.source⟩ :: ·)

/-! ## The declaration -/

/-- Blanks that have to stand between two parts of a declaration, unless it
ends here. -/
def declarationSpaces (c : Cursor) : Option Cursor :=
  if c.nextIs isSpace then some c.skipSpaces
  else if c.sees "?>" || c.ahead.isEmpty then some c else none

/-- An attribute of a declaration and the blanks after it. -/
def declarationAttribute (c : Cursor) : Option Cursor :=
  (readAttribute c).bind fun (_, c) => declarationSpaces c

/-- **The cursor after a document's declaration**, from after `<?xml`: a
version, then optionally an encoding and a note on standing alone. -/
def readDeclaration (c : Cursor) : Option Cursor := do
  let c ← declarationSpaces c
  if !c.sees "version" then none
  let c ← declarationAttribute c
  let c ← if c.sees "encoding" then declarationAttribute c else some c
  let c ← if c.sees "standalone" then (readAttribute c).map fun (_, c) => c else some c
  expect "?>" c.skipSpaces

end TagScript.Markup
