import TagScript.Scope.Lookup
import TagScript.Scope.Reserved
import TagScript.Text.Blank

/-!
# Privileges

A scope may hold privileges: names of operations and procedures it is
allowed to use. They are kept in a reserved local variable, as an array
of names or as a comma-separated text; only the local layer counts, and a
value of any other kind grants nothing.
-/

namespace TagScript.Privilege

/-- A name put into an ascending list of names that are all different. -/
def insertName (names : List String) (name : String) : List String :=
  match names with
  | [] => [name]
  | other :: rest =>
    if other = name then other :: rest
    else if name < other then name :: other :: rest
    else other :: insertName rest name

/-- Names in ascending order, each once. -/
def nameSet (names : List String) : List String :=
  names.foldr (fun name set => insertName set name) []

/-- The names that a value of the privilege variable lists. -/
def listed : Option Value → List String
  | some (.array items) =>
    (items.map fun item => Text.trim item.text).filter fun name => !name.isEmpty
  | some (.str s) => Text.names s
  | _ => []

/-- **The privileges of a scope**, ascending, each once. -/
def held (locals : Vars) : List String := nameSet (listed (locals.get? Reserved.procPrivilege))

/-- Whether a scope has a privilege. -/
def holds (locals : Vars) (name : String) : Bool := (held locals).contains name

/-- **A scope with some names granted**, which are kept as they are given;
the privileges are listed as an array from here on. -/
def grant (locals : Vars) (names : List String) : Vars :=
  locals.insert Reserved.procPrivilege
    (.array ((names.foldl insertName (held locals)).map .str))

/-! ## Small laws -/

theorem mem_insertName {names : List String} {name other : String} :
    other ∈ insertName names name ↔ other = name ∨ other ∈ names := by
  induction names with
  | nil => simp [insertName]
  | cons first rest ih =>
    simp only [insertName]
    by_cases hf : first = name
    · subst hf
      simp
    · by_cases hlt : name < first
      · simp [hf, hlt]
      · simp only [hf, hlt, if_false, List.mem_cons, ih]
        exact or_left_comm

theorem mem_foldl_insertName {more names : List String} {other : String} :
    other ∈ more.foldl insertName names ↔ other ∈ more ∨ other ∈ names := by
  induction more generalizing names with
  | nil => simp
  | cons first rest ih =>
    simp only [List.foldl_cons, ih, mem_insertName, List.mem_cons]
    constructor
    · rintro (h | h | h) <;> simp [h]
    · rintro ((h | h) | h) <;> simp [h]

theorem mem_nameSet {names : List String} {other : String} :
    other ∈ nameSet names ↔ other ∈ names := by
  induction names with
  | nil => simp [nameSet]
  | cons first rest ih =>
    simp only [nameSet, List.foldr_cons, mem_insertName, List.mem_cons] at ih ⊢
    rw [ih]

/-- **A scope holds what its variable lists.** -/
theorem mem_held {locals : Vars} {name : String} :
    name ∈ held locals ↔ name ∈ listed (locals.get? Reserved.procPrivilege) := mem_nameSet

end TagScript.Privilege
