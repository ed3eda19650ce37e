import TagScript.Text.Word

/-!
# Characters of a markup document

Which characters may occur in a document at all, which may begin or
continue a name, and which separate things inside a tag.
-/

namespace TagScript.Markup

/-- The blanks of markup. -/
def isSpace (c : Char) : Bool := c == ' ' || c == '\t' || c == '\n' || c == '\r'

/-- The characters that may occur in a document: of the controls only the
blanks, and everything else but the last two code points of the basic
plane. -/
def isDocumentChar (c : Char) : Bool :=
  if c.toNat < 0x20 then isSpace c else c.toNat != 0xFFFE && c.toNat != 0xFFFF

/-- The ranges outside ASCII that may begin a name. -/
def nameStartRanges : List (Nat × Nat) :=
  [(0xC0, 0xD6), (0xD8, 0xF6), (0xF8, 0x2FF), (0x370, 0x37D), (0x37F, 0x1FFF), (0x200C, 0x200D),
    (0x2070, 0x218F), (0x2C00, 0x2FEF), (0x3001, 0xD7FF), (0xF900, 0xFDCF), (0xFDF0, 0xFFFD),
    (0x10000, 0xEFFFF)]

/-- The ranges outside ASCII that may continue a name but not begin it. -/
def nameOnlyRanges : List (Nat × Nat) := [(0xB7, 0xB7), (0x300, 0x36F), (0x203F, 0x2040)]

/-- The characters a name may begin with. -/
def isNameStart (c : Char) : Bool :=
  if c.toNat ≤ 0x80 then c.isAlpha || c == ':' || c == '_'
  else Text.inRanges nameStartRanges c.toNat

/-- The characters a name may consist of. -/
def isNameChar (c : Char) : Bool :=
  if c.toNat ≤ 0x80 then c.isAlphanum || c == ':' || c == '_' || c == '-' || c == '.'
  else Text.inRanges nameStartRanges c.toNat || Text.inRanges nameOnlyRanges c.toNat

end TagScript.Markup
