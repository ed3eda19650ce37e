import TagScript.Value

/-!
# Going through a value

Arrays, maps, texts and iterators can be gone through; nothing else can.
A text is gone through character by character, an iterator from where it
stands. Seen as items, a map has its keys; seen as entries, it has its
keys with their values, while the entries of everything else are numbered
from zero.
-/

namespace TagScript.Value

/-- **The items of a value.** -/
def items? : Value → Option (List Value)
  | .array items => some items
  | .map entries => some (entries.map fun entry => .str entry.1)
  | .str s => some (characters s)
  | .iter items position => some (remaining items position)
  | _ => none

/-- Some items, each with its number. -/
def numbered (items : List Value) : List (Value × Value) :=
  items.zipIdx.map fun (item, n) => (.int (Int64.ofNat n), item)

/-- **The entries of a value**: keys and what stands under them. -/
def entries? : Value → Option (List (Value × Value))
  | .map entries => some (entries.map fun entry => (.str entry.1, entry.2))
  | v => v.items?.map numbered

/-- An iterator after it has been asked for an item, with the item it gave
out; at its end it gives out none and stays where it is. -/
def advance (items : List Value) (position : Nat) : Option Value × Value :=
  match items[position]? with
  | some item => (some item, .iter items (position + 1))
  | none => (none, .iter items position)

/-- A value can be gone through by items exactly if it can be by
entries. -/
theorem isSome_entries? (v : Value) : v.entries?.isSome = v.items?.isSome := by
  cases v <;> simp [entries?, items?]

end TagScript.Value
