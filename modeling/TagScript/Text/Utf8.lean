/-!
# Texts and bytes

A file's bytes are a text when they are well-formed UTF-8. Where they are
not, a script that reads them as a text is told where the first fault is
and how long: the number of bytes up to the first one that cannot belong
to a character, or that the bytes end inside one.
-/

namespace TagScript.Text.Utf8

/-- What is wrong at the first byte that begins no character. -/
inductive Defect where
  /-- This many bytes are no beginning of a character. -/
  | invalid (length : Nat)
  /-- The bytes end inside a character. -/
  | incomplete
  deriving DecidableEq, Repr

/-- How many bytes a character with this first byte has, and between which
bounds its second byte lies. -/
def lead? (b : UInt8) : Option (Nat × UInt8 × UInt8) :=
  if b < 0x80 then some (1, 0x80, 0xBF)
  else if 0xC2 ≤ b && b ≤ 0xDF then some (2, 0x80, 0xBF)
  else if b == 0xE0 then some (3, 0xA0, 0xBF)
  else if b == 0xED then some (3, 0x80, 0x9F)
  else if 0xE1 ≤ b && b ≤ 0xEF then some (3, 0x80, 0xBF)
  else if b == 0xF0 then some (4, 0x90, 0xBF)
  else if 0xF1 ≤ b && b ≤ 0xF3 then some (4, 0x80, 0xBF)
  else if b == 0xF4 then some (4, 0x80, 0x8F)
  else none

/-- The rest of a character of which `seen` bytes have been read and `owed`
are still to come, the next between two bounds: what is wrong with it, if
anything. -/
def tailDefect (seen : Nat) : (owed : Nat) → (low high : UInt8) → List UInt8 → Option Defect
  | 0, _, _, _ => none
  | _ + 1, _, _, [] => some .incomplete
  | owed + 1, low, high, b :: rest =>
    if low ≤ b && b ≤ high then tailDefect (seen + 1) owed 0x80 0xBF rest
    else some (.invalid seen)

/-- What is wrong with the character at the front, or its length. -/
def character : UInt8 → List UInt8 → Except Defect Nat
  | b, rest =>
    match lead? b with
    | none => .error (.invalid 1)
    | some (length, low, high) =>
      match tailDefect 1 (length - 1) low high rest with
      | some defect => .error defect
      | none => .ok length

/-- **The first defect of some bytes**, with its place; `skip` bytes at the
front belong to a character already seen. -/
def defectFrom? (index skip : Nat) : List UInt8 → Option (Nat × Defect)
  | [] => none
  | b :: rest =>
    match skip with
    | skip + 1 => defectFrom? (index + 1) skip rest
    | 0 =>
      match character b rest with
      | .error defect => some (index, defect)
      | .ok length => defectFrom? (index + 1) (length - 1) rest

/-- The first defect of some bytes. -/
def defect? (bytes : List UInt8) : Option (Nat × Defect) := defectFrom? 0 0 bytes

/-- How diagnostics describe a defect at a place. -/
def Defect.message (index : Nat) : Defect → String
  | .invalid length => s!"invalid utf-8 sequence of {length} bytes from index {index}"
  | .incomplete => s!"incomplete utf-8 byte sequence from index {index}"

example : defect? [0x61, 0xE2, 0x82, 0xAC] = none := by decide
example : defect? [0x61, 0xE2, 0x82] = some (1, .incomplete) := by decide
example : defect? [0x61, 0xE2, 0x28] = some (1, .invalid 1) := by decide
example : defect? [0xF0, 0x90, 0x80, 0x28] = some (0, .invalid 3) := by decide

end TagScript.Text.Utf8
