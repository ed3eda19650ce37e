import TagScript.Proofs.Likeness

/-!
# Frames in accord

Runs are compared by a relation between the frames that they go through, and
what has to be known of such a relation for a runner to keep to it is the same
whatever the relation is: what a runner looks at is equal or corresponds, and
what a runner changes it changes so that the frames correspond again. An
`Accord` is a relation of which this is known.

Not all variables need be equal in frames that accord. `Tag.ReadsText` tells
the attributes that a runner reads with variables put in, and `Tag.LooksUp` the
variables that it looks up by name; a runner sees the same from both frames if
these are the same in both, which is `Accord.Sees`.
-/

namespace TagScript

/-! ## Looks that see the same -/

namespace Run

variable {α β : Type} {s t : Frame}

/-- **A look that sees the same from two frames**: it yields the same, or
faults for the same cause. -/
def Concurs (x : Run α) (s t : Frame) : Prop :=
  (∃ a, x s = .done a s ∧ x t = .done a t) ∨
    ∃ cause, x s = .failed (.of cause) s ∧ x t = .failed (.of cause) t

theorem concurs_pure (a : α) : Concurs (pure a) s t := .inl ⟨a, rfl, rfl⟩

theorem concurs_fail (cause : Cause) : Concurs (fail cause : Run α) s t := .inr ⟨cause, rfl, rfl⟩

theorem concurs_look {f : Frame → α} (h : f t = f s) : Concurs (look f) s t :=
  .inl ⟨f s, rfl, congrArg (Ending.done · t) h⟩

theorem concurs_bind {x : Run α} {f : α → Run β} (hx : Concurs x s t)
    (hf : ∀ a, x s = .done a s → Concurs (f a) s t) : Concurs (x >>= f) s t := by
  obtain ⟨a, hs, ht⟩ | ⟨cause, hs, ht⟩ := hx
  · unfold Concurs
    rw [bind_of_done hs, bind_of_done ht]
    exact hf a hs
  · exact .inr ⟨cause, bind_of_failed hs f, bind_of_failed ht f⟩

theorem concurs_ite {c : Prop} [Decidable c] {x y : Run α} (hx : c → Concurs x s t)
    (hy : ¬c → Concurs y s t) : Concurs (if c then x else y) s t := by
  split
  · next h => exact hx h
  · next h => exact hy h

theorem concurs_ofExcept (r : Except Cause α) : Concurs (ofExcept r) s t := by
  cases r with
  | ok a => exact concurs_pure a
  | error cause => exact concurs_fail cause

end Run

/-! ## What a runner reads -/

/-- **The attributes that runners read with variables put in**, by the names of
their tags; those aside that a typed assignment assigns and a call passes on. -/
def readAttributes : Dict (List String) :=
  [("sub", ["pass_through"]), ("loop", ["pass_through"]), ("for_in", ["pass_through", "key"]),
    ("if", ["pass_through"]), ("elif", ["pass_through"]), ("case", ["pass_through"]),
    ("assert", ["key", "value"]), ("assert_not", ["key", "value"]), ("assert_in", ["key"]),
    ("assert_not_in", ["key"]), ("and", ["key1", "key2"]), ("or", ["key1", "key2"]),
    ("equal", ["key1", "key2"]), ("not_equal", ["key1", "key2"]), ("less", ["key1", "key2"]),
    ("less_equal", ["key1", "key2"]), ("greater", ["key1", "key2"]),
    ("greater_equal", ["key1", "key2"]), ("module", ["src"]), ("procedure_privilege", ["name"]),
    ("call", ["name", "pass_through"]), ("cond_call", ["name", "pass_through"]),
    ("set", ["type", "key", "global", "value"]), ("get", ["key", "defvalue", "dict_key", "index"]),
    ("return", ["key", "defvalue", "dict_key", "index"]),
    ("load_vars", ["type", "encoding", "auto_strip", "allow_none", "name"]),
    ("load_data", ["type", "encoding", "pass_through", "auto_strip", "allow_none", "name"]),
    ("output", ["encoding", "name", "newline", "mode", "type", "cols"]),
    ("handle_exceptions", ["type", "name", "cols", "debug"]), ("iter_make", ["key", "src"]),
    ("iter_next", ["key"]), ("json_load", ["encoding", "key", "content", "_from_file", "_to_key"]),
    ("json_dump", ["encoding", "key", "_to_key", "_to_file"]),
    ("template", ["encoding", "key", "content", "_from_file", "_to_key", "_to_file"]),
    ("call_os_cmd", ["cmd", "args"])]

/-- The tags that look up the variable that their attribute `key` names. -/
def keyedNames : List String :=
  ["for_in", "assert", "assert_not", "assert_in", "assert_not_in", "get", "return", "iter_next",
    "json_load", "json_dump", "template"]

/-- The tags that look up two variables if their attributes name two. -/
def operatorNames : List String :=
  ["and", "or", "equal", "not_equal", "less", "less_equal", "greater", "greater_equal"]

namespace Tag

/-- **The attributes of a tag that its runner reads with variables put in.** -/
inductive ReadsText (tag : Tag) (name : String) : Prop where
  /-- Those that all tags of its name have read. -/
  | named (h : name ∈ (readAttributes.get? tag.name).getD [])
  /-- All attributes of a typed assignment. -/
  | assigned (h : tag.name ∈ ["set_int", "set_num", "set_str"])
  /-- The parameters of a call. -/
  | parameter (h : tag.name ∈ ["call", "cond_call"]) (hname : Runner.isParameter name = true)

/-- **The variables that the runner of a tag looks up** by their names, told
from the frame in which it begins. -/
inductive LooksUp (tag : Tag) (start : Frame) : String → Prop where
  /-- That which its attribute `key` names. -/
  | keyed (h : tag.name ∈ keyedNames) : LooksUp tag start (start.attrKey tag "key")
  /-- The operands of an operator. -/
  | operand {first second key : String} (h : tag.name ∈ operatorNames)
      (hpair : Run.keyPair tag start = .done (some (first, second)) start)
      (hkey : key = first ∨ key = second) : LooksUp tag start key
  /-- That which an iterator is made of. -/
  | source (h : tag.name = "iter_make") : LooksUp tag start (start.attrKey tag "src")
  /-- The columns of a row that is put out. -/
  | column {key : String} (h : tag.name = "output") (hfirst : tag.firstTag? = none)
      (hkey : key ∈ Text.names (start.attrKey tag "cols")) : LooksUp tag start key
  /-- That which switches a conditional call on. -/
  | switch (h : tag.name = "cond_call") : LooksUp tag start ("!" ++ start.attrKey tag "name")
  /-- Those that the placeholders of a template begin with. -/
  | placeholder {source key : String} {name : List Char} {path : List String}
      (h : tag.name = "template") (hsource : Runner.readSource tag start = .done source start)
      (hname : .placeholder name ∈ Template.pieces source.toList)
      (hkey : Text.segments '.' (String.ofList name) = key :: path) : LooksUp tag start key

variable {tag : Tag} {name text : String}

/-- An attribute that all tags of its name have read. -/
theorem ReadsText.of_name {n : String} (hname : tag.name = n)
    (h : name ∈ (readAttributes.get? n).getD []) : tag.ReadsText name :=
  .named (hname ▸ h)

/-- An attribute that is read by all tags of some names. -/
theorem ReadsText.of_mem {names : List String} (hname : tag.name ∈ names)
    (h : ∀ n ∈ names, name ∈ (readAttributes.get? n).getD []) : tag.ReadsText name :=
  .named (h _ hname)

theorem mem_attrs_of_attr (h : tag.attr name = some text) : (name, some text) ∈ tag.attrs :=
  Dict.mem_of_get?_eq_some (Option.join_eq_some_iff.1 h)

end Tag

/-! ## Accords -/

/-- **A way to compare frames and tags that runners keep to.** -/
structure Accord where
  /-- How tags are compared. -/
  Tags : Tag → Tag → Prop
  /-- How frames are compared. -/
  Frames : Frame → Frame → Prop
  /-- How files are. -/
  files : Files → Files → Prop
  /-- Where the first run may be cut off without a word about the second. -/
  free : Frame → Prop
  /-- The comparison of tags goes down into them. -/
  likens : Tag.Likens Tags
  /-- In frames that accord, the global variables are the same, -/
  globals {s t : Frame} (h : Frames s t) : t.world.globals = s.world.globals
  /-- the search path, -/
  searchPath {s t : Frame} (h : Frames s t) : t.world.searchPath = s.world.searchPath
  /-- the memory handles, -/
  handles {s t : Frame} (h : Frames s t) : t.world.handles = s.world.handles
  /-- the system -/
  system {s t : Frame} (h : Frames s t) : t.world.system = s.world.system
  /-- and how many programs have been started -/
  starts {s t : Frame} (h : Frames s t) : t.world.starts = s.world.starts
  /-- and exception handlers installed. -/
  handlers {s t : Frame} (h : Frames s t) : t.world.handlers = s.world.handlers
  /-- The files correspond, -/
  stores {s t : Frame} (h : Frames s t) : files s.world.files t.world.files
  /-- and so do the procedures of each name. -/
  procedure? {s t : Frame} (h : Frames s t) (name : String) :
    Option.Rel Tags (s.world.procedures.get? name) (t.world.procedures.get? name)
  /-- The same privileges are held -/
  privileges {s t : Frame} (h : Frames s t) :
    t.locals.get? Reserved.procPrivilege = s.locals.get? Reserved.procPrivilege
  /-- and the same row is worked on. -/
  rowIndex {s t : Frame} (h : Frames s t) :
    t.locals.get? Reserved.loadedDataItemIndex = s.locals.get? Reserved.loadedDataItemIndex
  /-- Frames go on to accord with the local variables of others that do, -/
  copied {s t u v : Frame} (h : Frames s t) (hafter : Frames u v) :
    Frames { u with locals := s.locals } { v with locals := t.locals }
  /-- with a variable bound -/
  setLocal {s t : Frame} (h : Frames s t) (key : String) (value : Value) :
    Frames (s.setLocal key value) (t.setLocal key value)
  /-- or not bound any more, -/
  unbound {s t : Frame} (h : Frames s t) (key : String) :
    Frames { s with locals := s.locals.erase key } { t with locals := t.locals.erase key }
  /-- with a global one bound, -/
  setGlobal {s t : Frame} (h : Frames s t) (key : String) (value : Value) :
    Frames (s.setGlobal key value) (t.setGlobal key value)
  /-- with a procedure defined, -/
  defined {s t : Frame} {a b : Tag} (h : Frames s t) (hab : Tags a b) (names : List String) :
    Frames
      { s with world := { s.world with
        procedures := s.world.procedures.insertAll (names.map fun name => (name, a)) } }
      { t with world := { t.world with
        procedures := t.world.procedures.insertAll (names.map fun name => (name, b)) } }
  /-- once a call has been noted -/
  called {s t : Frame} {a b : Tag} (h : Frames s t) (hab : Tags a b) (name : String) :
    Frames { s with world := s.world.note (.called a name) }
      { t with world := t.world.note (.called b name) }
  /-- or a program has been started, -/
  started {s t : Frame} (h : Frames s t) (program : String) (arguments : List String) :
    Frames { s with world := s.world.start program arguments }
      { t with world := t.world.start program arguments }
  /-- with another exception handler, -/
  installed {s t : Frame} (h : Frames s t) :
    Frames { s with world := { s.world with handlers := s.world.handlers + 1 } }
      { t with world := { t.world with handlers := t.world.handlers + 1 } }
  /-- with a text in a memory handle, -/
  held {s t : Frame} (h : Frames s t) (name text : String) :
    Frames { s with world := { s.world with handles := s.world.handles.insert name text } }
      { t with world := { t.world with handles := t.world.handles.insert name text } }
  /-- with a lock asked for, -/
  locked {s t : Frame} (h : Frames s t) (path : String) :
    Frames { s with world := s.world.lock path } { t with world := t.world.lock path }
  /-- and with files that correspond. -/
  stored {s t : Frame} (h : Frames s t) {v w : Files} (hfiles : files v w) :
    Frames { s with world := { s.world with files := v } }
      { t with world := { t.world with files := w } }

namespace Accord

variable {K : Accord}

theorem Tags.alike {a b : Tag} (h : K.Tags a b) : a.Alike b := K.likens.alike h

theorem Tags.tags {a b : Tag} (h : K.Tags a b) : List.Forall₂ K.Tags a.tags b.tags :=
  K.likens.tags h

/-- **A tag sees the same from two frames**: the attributes that it reads come
to the same in all frames that accord, and the variables that it looks up are
the same in these two. -/
structure Sees (K : Accord) (tag : Tag) (s t : Frame) : Prop where
  /-- The texts of the attributes -/
  texts {name text : String} (hreads : tag.ReadsText name) (hattr : (name, some text) ∈ tag.attrs)
    {u v : Frame} (h : K.Frames u v) : v.substitute text = u.substitute text
  /-- and the values of the variables. -/
  values {key : String} (hlooks : tag.LooksUp s key) : t.locals.get? key = s.locals.get? key

namespace Frames

variable {s t : Frame} (h : K.Frames s t)
include h

theorem holds (name : String) : Privilege.holds t.locals name = Privilege.holds s.locals name := by
  unfold Privilege.holds Privilege.held
  rw [K.privileges h]

theorem grant (names : List String) :
    K.Frames { s with locals := Privilege.grant s.locals names }
      { t with locals := Privilege.grant t.locals names } := by
  have hheld : Privilege.held t.locals = Privilege.held s.locals := by
    unfold Privilege.held
    rw [K.privileges h]
  unfold Privilege.grant
  rw [hheld]
  exact K.setLocal h _ _

theorem lookup {key : String} (hkey : t.locals.get? key = s.locals.get? key) :
    t.lookup key = s.lookup key := by
  unfold Frame.lookup Scope.lookup
  rw [hkey, K.globals h]

theorem read {key : String} (hkey : t.locals.get? key = s.locals.get? key) :
    t.read key = s.read key := by
  unfold Frame.read
  rw [h.lookup hkey]

theorem primaryDir : t.world.primaryDir = s.world.primaryDir := by
  unfold World.primaryDir
  rw [K.searchPath h]

theorem set (key : String) (value : Value) (global : Bool) :
    K.Frames (s.set key value global) (t.set key value global) := by
  cases global with
  | true => exact K.setGlobal h key value
  | false => exact K.setLocal h key value

theorem insertAll (bindings : List (String × Value)) :
    K.Frames { s with locals := s.locals.insertAll bindings }
      { t with locals := t.locals.insertAll bindings } := by
  induction bindings generalizing s t with
  | nil => exact h
  | cons binding rest ih => exact ih (K.setLocal h binding.1 binding.2)

/-- The columns of a row, and what is told about it. -/
theorem rowScope (columns : List String) (row : Vars) (n : Nat) :
    K.Frames { s with locals := Runner.rowScope columns row n s.locals }
      { t with locals := Runner.rowScope columns row n t.locals } := by
  have hrow := h.insertAll row
  unfold Runner.rowScope
  dsimp only
  rw [K.rowIndex hrow]
  exact K.setLocal (K.setLocal hrow _ _) _ _

theorem concurs_outputPath (name : String) : (Run.outputPath name).Concurs s t :=
  Run.concurs_look (congrArg (Path.join · name) h.primaryDir)

theorem concurs_handleText (name : String) : (Runner.handleText name).Concurs s t := by
  refine Run.concurs_bind (Run.concurs_look ?_) fun found _ => ?_
  · rw [K.handles h]
  · cases found with
    | none => exact Run.concurs_fail _
    | some text => exact Run.concurs_pure text

end Frames

/-! ## What a tag sees -/

namespace Sees

variable {tag : Tag} {s t : Frame} (hsees : K.Sees tag s t)
include hsees

section Texts

variable {u v : Frame} (h : K.Frames u v) {name : String} (hreads : tag.ReadsText name)
include h

theorem attrText (hreads : tag.ReadsText name) : v.attrText tag name = u.attrText tag name := by
  unfold Frame.attrText
  cases hattr : tag.attr name with
  | none => rfl
  | some text => exact congrArg some (hsees.texts hreads (Tag.mem_attrs_of_attr hattr) h)

include hreads

theorem attrKey : v.attrKey tag name = u.attrKey tag name := by
  unfold Frame.attrKey
  rw [hsees.attrText h hreads]

theorem concurs_attrText : (Run.attrText tag name).Concurs u v :=
  Run.concurs_look (hsees.attrText h hreads)

theorem concurs_attrKey : (Run.attrKey tag name).Concurs u v :=
  Run.concurs_look (hsees.attrKey h hreads)

theorem concurs_requireKey : (Run.requireKey tag name).Concurs u v :=
  Run.concurs_bind (hsees.concurs_attrKey h hreads) fun _ _ =>
    Run.concurs_ite (fun _ => Run.concurs_fail _) fun _ => Run.concurs_pure _

theorem concurs_attrSwitch (default : Bool) : (Run.attrSwitch tag name default).Concurs u v := by
  refine Run.concurs_bind (hsees.concurs_attrText h hreads) fun text _ => ?_
  cases text with
  | none => exact Run.concurs_pure default
  | some text =>
    dsimp only
    split
    · exact Run.concurs_pure _
    · exact Run.concurs_fail _

omit hreads

theorem concurs_checkEncoding (hreads : tag.ReadsText "encoding") :
    (Run.checkEncoding tag).Concurs u v :=
  Run.concurs_bind (hsees.concurs_attrKey h hreads) fun _ _ =>
    Run.concurs_ite (fun _ => Run.concurs_pure _) fun _ => Run.concurs_fail _

theorem concurs_checkTableType (hreads : tag.ReadsText "type") :
    (Run.checkTableType tag).Concurs u v :=
  Run.concurs_bind (hsees.concurs_attrKey h hreads) fun _ _ =>
    Run.concurs_ite (fun _ => Run.concurs_pure _) fun _ => Run.concurs_fail _

theorem concurs_fieldPolicy (hstrip : tag.ReadsText "auto_strip")
    (hnullable : tag.ReadsText "allow_none") : (Run.fieldPolicy tag).Concurs u v :=
  Run.concurs_bind (hsees.concurs_attrSwitch h hstrip _) fun _ _ =>
    Run.concurs_bind (hsees.concurs_attrSwitch h hnullable _) fun _ _ => Run.concurs_pure _

theorem concurs_keyPair (hname : tag.name ∈ operatorNames) : (Run.keyPair tag).Concurs u v :=
  Run.concurs_bind (hsees.concurs_attrKey h (.of_mem hname (by decide))) fun _ _ =>
    Run.concurs_bind (hsees.concurs_attrKey h (.of_mem hname (by decide))) fun _ _ =>
      Run.concurs_pure _

theorem concurs_outputMode (hreads : tag.ReadsText "mode") (default : Files.WriteMode) :
    (Runner.outputMode tag default).Concurs u v := by
  refine Run.concurs_bind (hsees.concurs_attrKey h hreads) fun mode _ =>
    Run.concurs_ite (fun _ => Run.concurs_pure _) fun _ => ?_
  split
  · exact Run.concurs_pure _
  · exact Run.concurs_fail _

end Texts

variable (h : K.Frames s t)
include h

theorem lookup {key : String} (hlooks : tag.LooksUp s key) : t.lookup key = s.lookup key :=
  h.lookup (hsees.values hlooks)

theorem concurs_read {key : String} (hlooks : tag.LooksUp s key) : (Run.read key).Concurs s t :=
  Run.concurs_look (h.read (hsees.values hlooks))

end Sees

/-! ## Computations in accord -/

/-- **Endings that accord**: with results that correspond, with the same fault,
or both of them cut off – or the first one where nothing is asked of the
second. -/
inductive Endings (K : Accord) {α β : Type} (V : α → β → Prop) : Ending α → Ending β → Prop where
  | done {a : α} {b : β} {s t : Frame} (hV : V a b) (h : K.Frames s t) :
      Endings K V (.done a s) (.done b t)
  | failed {f g : Fault} {s t : Frame} (hcause : g.cause = f.cause) (h : K.Frames s t) :
      Endings K V (.failed f s) (.failed g t)
  | exhausted {s t : Frame} (h : K.Frames s t) : Endings K V (.exhausted s) (.exhausted t)
  | free {s : Frame} (h : K.free s) (ending : Ending β) : Endings K V (.exhausted s) ending

namespace Endings

variable {α α' β β' : Type} {V : α → α' → Prop} {W : β → β' → Prop} {s t : Frame}

/-- Unless the first run is cut off where that says nothing, the frames
after both accord, -/
theorem frames {x : Ending α} {y : Ending α'} (h : K.Endings V x y) (hfree : ¬K.free x.after) :
    K.Frames x.after y.after := by
  cases h with
  | done _ h => exact h
  | failed _ h => exact h
  | exhausted h => exact h
  | free h _ => exact absurd h hfree

/-- and the second run has a result exactly if the first has it. -/
theorem done_iff {x y : Ending α} (h : K.Endings Eq x y) (hfree : ¬K.free x.after) (a : α) :
    (∃ u, x = .done a u) ↔ ∃ u, y = .done a u := by
  cases h with
  | @done b c s t hbc _ =>
    subst hbc
    refine ⟨fun ⟨u, hu⟩ => ⟨t, ?_⟩, fun ⟨u, hu⟩ => ⟨s, ?_⟩⟩
    · rw [(Ending.done.inj hu).1]
    · rw [(Ending.done.inj hu).1]
  | failed _ _ => simp
  | exhausted _ => simp
  | free h _ => exact absurd h hfree

theorem pure {a : α} {b : α'} (h : K.Frames s t) (hV : V a b) :
    K.Endings V ((Pure.pure a : Run α) s) ((Pure.pure b : Run α') t) := .done hV h

theorem fail (h : K.Frames s t) (cause : Cause) :
    K.Endings V ((Run.fail cause : Run α) s) ((Run.fail cause : Run α') t) := .failed rfl h

theorem change {f g : Frame → Frame} (h : K.Frames (f s) (g t)) :
    K.Endings Eq (Run.change f s) (Run.change g t) := .done rfl h

/-- Sequences accord if their parts do. -/
theorem bind {x : Run α} {y : Run α'} {f : α → Run β} {g : α' → Run β'}
    (hxy : K.Endings V (x s) (y t))
    (hfg : ∀ a b s' t', V a b → K.Frames s' t' → K.Endings W (f a s') (g b t')) :
    K.Endings W ((x >>= f) s) ((y >>= g) t) := by
  rw [Run.bind_apply, Run.bind_apply]
  revert hxy
  generalize x s = first
  generalize y t = second
  intro hxy
  cases hxy with
  | done hV h => exact hfg _ _ _ _ hV h
  | failed hcause h => exact .failed hcause h
  | exhausted h => exact .exhausted h
  | free h _ => exact .free h _

/-- With results that are the same. -/
theorem bind_eq {x y : Run α} {f : α → Run β} {g : α → Run β'} (hxy : K.Endings Eq (x s) (y t))
    (hfg : ∀ a s' t', K.Frames s' t' → K.Endings W (f a s') (g a t')) :
    K.Endings W ((x >>= f) s) ((y >>= g) t) :=
  hxy.bind fun a _ s' t' hab h => hab ▸ hfg a s' t' h

/-- Looking the same way first. -/
theorem look_bind {x : Run α} {f : α → Run β} {g : α → Run β'} (h : K.Frames s t)
    (hx : x.Concurs s t) (hfg : ∀ a, x s = .done a s → K.Endings W (f a s) (g a t)) :
    K.Endings W ((x >>= f) s) ((x >>= g) t) := by
  obtain ⟨a, hs, ht⟩ | ⟨cause, hs, ht⟩ := hx
  · rw [Run.bind_of_done hs, Run.bind_of_done ht]
    exact hfg a hs
  · rw [Run.bind_of_failed hs, Run.bind_of_failed ht]
    exact .failed rfl h

/-- Looking at what may differ. -/
theorem looked {f : Frame → α} {g : Frame → α'} {k : α → Run β} {k' : α' → Run β'}
    (h : K.Endings W (k (f s) s) (k' (g t) t)) :
    K.Endings W ((Run.look f >>= k) s) ((Run.look g >>= k') t) := h

/-- What is done on copies. -/
theorem isolated {x : Run α} {y : Run α'} (h : K.Frames s t) (hxy : K.Endings V (x s) (y t)) :
    K.Endings V (x.isolated s) (y.isolated t) := by
  unfold Run.isolated
  revert hxy
  generalize x s = first
  generalize y t = second
  intro hxy
  cases hxy with
  | done hV hafter => exact .done hV (K.copied h hafter)
  | failed hcause hafter => exact .failed hcause (K.copied h hafter)
  | exhausted h => exact .exhausted h
  | free h _ => exact .free h _

theorem within {x : Run α} {y : Run α'} (h : K.Frames s t) (shared : Bool)
    (hxy : K.Endings V (x s) (y t)) :
    K.Endings V (Run.within shared x s) (Run.within shared y t) := by
  cases shared with
  | true => exact hxy
  | false => exact hxy.isolated h

theorem ite {c d : Prop} [Decidable c] [Decidable d] {x x' : Run α} {y y' : Run α'} (hcd : d ↔ c)
    (hx : c → K.Endings V (x s) (y t)) (hx' : ¬c → K.Endings V (x' s) (y' t)) :
    K.Endings V ((if c then x else x') s) ((if d then y else y') t) := by
  by_cases h : c
  · rw [if_pos h, if_pos (hcd.2 h)]
    exact hx h
  · rw [if_neg h, if_neg fun hd => h (hcd.1 hd)]
    exact hx' h

/-- Doing something with each item of a list. -/
theorem forEach {γ : Type} {body body' : γ → Run Bool} (items : List γ)
    (hbody : ∀ item ∈ items, ∀ s t, K.Frames s t → K.Endings Eq (body item s) (body' item t))
    (h : K.Frames s t) :
    K.Endings Eq (Run.forEach body items s) (Run.forEach body' items t) := by
  induction items generalizing s t with
  | nil => exact .pure h rfl
  | cons item rest ih =>
    refine (hbody item List.mem_cons_self s t h).bind_eq fun goesOn s' t' h' => ?_
    cases goesOn with
    | true => exact ih (fun item hi => hbody item (List.mem_cons_of_mem _ hi)) h'
    | false => exact .pure h' rfl

/-- Going round and round, equally often at most. -/
theorem repeatWhile {body body' : Run Bool} (rounds : Nat)
    (hbody : ∀ s t, K.Frames s t → K.Endings Eq (body s) (body' t)) (h : K.Frames s t) :
    K.Endings Eq (Run.repeatWhile body rounds s) (Run.repeatWhile body' rounds t) := by
  induction rounds generalizing s t with
  | zero => exact .exhausted h
  | succ rounds ih =>
    refine (hbody s t h).bind_eq fun goesOn s' t' h' => ?_
    cases goesOn with
    | true => exact ih h'
    | false => exact .pure h' rfl

theorem store (h : K.Frames s t) (key : String) (value : Value) (global : Bool) :
    K.Endings Eq (Run.store key value global s) (Run.store key value global t) :=
  .ite Iff.rfl (fun _ => .fail h _) fun _ => .change (h.set key value global)

/-- An assignment as the last thing that a tag does. -/
theorem assigned (h : K.Frames s t) (key : String) (value : Value) (global : Bool) :
    K.Endings Eq ((Run.store key value global >>= fun _ => Pure.pure Outcome.ok) s)
      ((Run.store key value global >>= fun _ => Pure.pure Outcome.ok) t) :=
  (store h key value global).bind_eq fun _ _ _ h => .pure h rfl

end Endings

/-- **Two ways to execute tags that accord**, at two depths. -/
def Executes (K : Accord) (exec exec' : Tag → Depth → Run Outcome) (depth depth' : Depth) : Prop :=
  ∀ {a b : Tag}, K.Tags a b → ∀ {s t : Frame}, K.Frames s t →
    K.Endings Eq (exec a depth s) (exec' b depth' t)

end Accord

end TagScript
