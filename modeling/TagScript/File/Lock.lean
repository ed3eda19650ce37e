import TagScript.File.Path

/-!
# Locks on output files

Whoever writes a file holds its lock meanwhile. There is one lock for
every name a file can have, whatever directory it lies in; a path that
ends with no name has a lock of its own by its text. Locks are numbered
in the order in which they were first asked for, and none is ever
replaced.

A lock that is held is free for nobody until it is given back. Writers in
one run come one after the other, so that a run always finds its locks
free; it is for others with the same locks that they are there.
-/

namespace TagScript

/-- **The locks made so far**, by their keys, in the order of their
numbers. -/
structure Locks where
  /-- The key of each lock. -/
  keys : List String
  deriving DecidableEq, Repr

namespace Locks

/-- No lock yet. -/
def empty : Locks := ⟨[]⟩

/-- **What a path's lock goes by.** -/
def key (path : String) : String := (Path.fileName? path).getD path

/-- The locks once a path's lock has been asked for. -/
def ask (locks : Locks) (path : String) : Locks :=
  if locks.keys.contains (key path) then locks else ⟨locks.keys ++ [key path]⟩

/-- The number of a path's lock, once it has been asked for. -/
def number (locks : Locks) (path : String) : Nat := (locks.ask path).keys.idxOf (key path)

/-- How many locks there are. -/
def size (locks : Locks) : Nat := locks.keys.length

/-- A lock once made is there for good. -/
theorem keys_ask (locks : Locks) (path : String) :
    locks.keys <+: (locks.ask path).keys := by
  unfold ask
  split
  · exact List.prefix_rfl
  · exact List.prefix_append _ _

/-- After asking, the lock is there. -/
theorem key_mem_ask (locks : Locks) (path : String) : key path ∈ (locks.ask path).keys := by
  unfold ask
  split
  · next h => simpa using h
  · simp

theorem size_le_ask (locks : Locks) (path : String) : locks.size ≤ (locks.ask path).size :=
  (keys_ask locks path).length_le

theorem number_lt_ask (locks : Locks) (path : String) :
    locks.number path < (locks.ask path).size :=
  List.idxOf_lt_length_of_mem (key_mem_ask locks path)

end Locks

/-- **Locks in use**: those made so far, and which of them are held. -/
structure Custody where
  /-- The locks. -/
  locks : Locks
  /-- The numbers of those that are held. -/
  held : List Nat
  /-- A lock has been made before it is held. -/
  made : ∀ number ∈ held, number < locks.size
  deriving DecidableEq, Repr

namespace Custody

/-- No lock yet, and none that is held. -/
def empty : Custody := ⟨.empty, [], nofun⟩

/-- **Whether a path's lock is free**, once it has been asked for. -/
def isFree (c : Custody) (path : String) : Bool := !c.held.contains (c.locks.number path)

/-- A path's lock asked for. -/
def ask (c : Custody) (path : String) : Custody where
  locks := c.locks.ask path
  held := c.held
  made number hnumber := Nat.lt_of_lt_of_le (c.made number hnumber) (c.locks.size_le_ask path)

/-- A path's lock asked for and taken, if it is free. -/
def take (c : Custody) (path : String) : Custody :=
  if c.isFree path then
    { c.ask path with
      held := c.locks.number path :: c.held
      made := List.forall_mem_cons.2 ⟨c.locks.number_lt_ask path, (c.ask path).made⟩ }
  else c.ask path

/-- A lock given back. -/
def release (c : Custody) (number : Nat) : Custody where
  locks := c.locks
  held := c.held.filter (· ≠ number)
  made other hother := c.made other (List.mem_filter.1 hother).1

end Custody

end TagScript
