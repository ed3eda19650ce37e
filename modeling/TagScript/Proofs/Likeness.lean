import Mathlib.Data.List.Forall2
import TagScript.Proofs.Finiteness
import TagScript.Proofs.Leaf
import TagScript.Proofs.Storage

/-!
# Tags that are alike, and runs that mirror each other

Two tags are alike if they agree node by node in their names, attributes,
inner tags and joined texts. Where they stand in a source, and how their
texts are cut into pieces around the inner tags, they may differ in. All
that a runner takes from a tag – its branches, its assertion, its first tag
– is alike for tags that are alike.

Two runs mirror each other if they go through frames that say the same: the
same variables, handles, locks, trace and time, procedures whose tags are
alike, and journals whose events are. What is asked of the files is left
open, for runs may be compared that work on different ones; a `Mirror` says
how. This module has the relations, and which changes of frames keep them.
-/

namespace TagScript

namespace Tag

/-! ## Tags that are alike -/

/-- **Tags that are alike**, node by node: in name, in attributes, in the
tags inside them and in the text between these, taken together. -/
inductive Alike : Tag → Tag → Prop where
  /-- Two tags of one name, with the same attributes and text, and with tags
  inside that are alike. -/
  | intro {a b : Tag} (name : b.name = a.name) (attrs : b.attrs = a.attrs) (text : b.text = a.text)
      (tags : List.Forall₂ Alike a.tags b.tags) : Alike a b

namespace Alike

variable {a b : Tag}

theorem name (h : a.Alike b) : b.name = a.name := by
  cases h with
  | intro name _ _ _ => exact name

theorem attrs (h : a.Alike b) : b.attrs = a.attrs := by
  cases h with
  | intro _ attrs _ _ => exact attrs

theorem text (h : a.Alike b) : b.text = a.text := by
  cases h with
  | intro _ _ text _ => exact text

theorem tags (h : a.Alike b) : List.Forall₂ Alike a.tags b.tags := by
  cases h with
  | intro _ _ _ tags => exact tags

/-- **Every tag is like itself.** -/
theorem refl (tag : Tag) : tag.Alike tag := by
  -- there are fewer tags in a tag than in one around it
  generalize hsize : tag.withAll.length = size
  induction size using Nat.strongRecOn generalizing tag with
  | ind size ih =>
    refine .intro rfl rfl rfl (List.forall₂_same.2 fun child hchild => ?_)
    exact ih child.withAll.length (hsize ▸ length_withAll_lt_of_mem_tags hchild) child rfl

/-- Attributes read the same. -/
theorem attr (h : a.Alike b) (name : String) : b.attr name = a.attr name := by
  unfold Tag.attr
  rw [h.attrs]

theorem hasAttr (h : a.Alike b) (name : String) : b.hasAttr name = a.hasAttr name := by
  unfold Tag.hasAttr
  rw [h.attrs]

theorem showAttrs (h : a.Alike b) : b.showAttrs = a.showAttrs := by
  unfold Tag.showAttrs
  rw [h.attrs]

theorem isAssertion (h : a.Alike b) : b.isAssertion = a.isAssertion := by
  unfold Tag.isAssertion
  rw [h.name]

end Alike

/-! ## The parts of tags -/

section Parts

variable {T : Tag → Tag → Prop} {xs ys : List Tag}

theorem rel_head? (h : List.Forall₂ T xs ys) : Option.Rel T xs.head? ys.head? := by
  cases h with
  | nil => exact .none
  | cons h _ => exact .some h

theorem rel_getLast? (h : List.Forall₂ T xs ys) : Option.Rel T xs.getLast? ys.getLast? := by
  rw [← List.head?_reverse, ← List.head?_reverse]
  exact rel_head? (List.rel_reverse h)

/-- A search by something in which tags that are compared do not differ. -/
theorem rel_find? {p : Tag → Bool} (hp : ∀ {a b}, T a b → p b = p a)
    (h : List.Forall₂ T xs ys) : Option.Rel T (xs.find? p) (ys.find? p) := by
  induction h with
  | nil => exact .none
  | @cons a b _ _ hab _ ih =>
    cases ha : p a with
    | true =>
      rw [List.find?_cons_of_pos ha, List.find?_cons_of_pos ((hp hab).trans ha)]
      exact .some hab
    | false =>
      rw [List.find?_cons_of_neg (by simp [ha]), List.find?_cons_of_neg (by simp [hp hab, ha])]
      exact ih

theorem rel_or {x x' y y' : Option Tag} (hx : Option.Rel T x x') (hy : Option.Rel T y y') :
    Option.Rel T (x.or y) (x'.or y') := by
  cases hx with
  | none => exact hy
  | some h => exact .some h

theorem rel_isNone {x y : Option Tag} (h : Option.Rel T x y) : y.isNone = x.isNone := by
  cases h with
  | none => rfl
  | some _ => rfl

theorem rel_length (h : List.Forall₂ T xs ys) : ys.length = xs.length := h.length_eq.symm

theorem rel_isEmpty (h : List.Forall₂ T xs ys) : ys.isEmpty = xs.isEmpty := by
  cases h with
  | nil => rfl
  | cons _ _ => rfl

end Parts

/-- The assertions that tags which are alike make of their attributes have no
tags and no text inside them at all. -/
theorem Alike.ownAssertion? {a b : Tag} (h : a.Alike b) :
    Option.Rel Alike a.ownAssertion? b.ownAssertion? := by
  unfold Tag.ownAssertion?
  rw [h.attr, h.attrs]
  split
  · exact .none
  · dsimp only
    split
    · exact .none
    · exact .some (.intro rfl rfl rfl .nil)

/-- **A way to compare tags that goes down into them**: tags that it finds
equal are alike, and so it is with the tags that a runner takes from them. -/
structure Likens (T : Tag → Tag → Prop) : Prop where
  /-- They are alike at least. -/
  alike {a b : Tag} (h : T a b) : a.Alike b
  /-- A tag is equal to itself. -/
  refl (a : Tag) : T a a
  /-- Equal are the tags inside -/
  tags {a b : Tag} (h : T a b) : List.Forall₂ T a.tags b.tags
  /-- and the assertions made of attributes. -/
  ownAssertion? {a b : Tag} (h : T a b) : Option.Rel T a.ownAssertion? b.ownAssertion?

theorem likens_alike : Likens Alike := ⟨id, .refl, Alike.tags, Alike.ownAssertion?⟩

theorem likens_eq : Likens Eq where
  alike h := h ▸ .refl _
  refl _ := rfl
  tags h := List.forall₂_eq_eq_eq ▸ congrArg Tag.tags h
  ownAssertion? {a b} h := by
    subst h
    cases a.ownAssertion? with
    | none => exact .none
    | some _ => exact .some rfl

namespace Likens

variable {T : Tag → Tag → Prop} (likens : Likens T) {a b : Tag} (h : T a b)
include likens h

theorem firstTag? : Option.Rel T a.firstTag? b.firstTag? := rel_head? (likens.tags h)

theorem lastNamed? (name : String) : Option.Rel T (a.lastNamed? name) (b.lastNamed? name) := by
  refine rel_getLast? (List.rel_filter (fun {x y} hxy => ?_) (likens.tags h))
  dsimp only
  rw [(likens.alike hxy).name]

theorem assertion? : Option.Rel T a.assertion? b.assertion? :=
  rel_or (likens.ownAssertion? h)
    (rel_find? (fun h => (likens.alike h).isAssertion) (likens.tags h))

theorem branch? (matched : Bool) : Option.Rel T (a.branch? matched) (b.branch? matched) := by
  cases matched with
  | true => exact likens.lastNamed? h _
  | false => exact rel_or (likens.lastNamed? h _) (likens.lastNamed? h _)

end Likens

end Tag

/-- **Events that are alike**: they tell the same of tags that are alike; of
a fault, where it was charged to does not count. -/
inductive Event.Alike : Event → Event → Prop where
  | entered {a b : Tag} (depth : Depth) (h : a.Alike b) :
      Alike (.entered a depth) (.entered b depth)
  | invoked {a b : Tag} (depth : Depth) (trace : List String) (locals globals : Vars)
      (h : a.Alike b) :
      Alike (.invoked a depth trace locals globals) (.invoked b depth trace locals globals)
  | faulted {a b : Tag} (depth : Depth) {f g : Fault} (locals globals : Vars) (h : a.Alike b)
      (hcause : g.cause = f.cause) :
      Alike (.faulted a depth f locals globals) (.faulted b depth g locals globals)
  | called {a b : Tag} (procedure : String) (h : a.Alike b) :
      Alike (.called a procedure) (.called b procedure)
  | started (command : String) (arguments : List String) :
      Alike (.started command arguments) (.started command arguments)
  | left {a b : Tag} (depth : Depth) (outcome : Outcome) (h : a.Alike b) :
      Alike (.left a depth outcome) (.left b depth outcome)

theorem Event.Alike.refl (event : Event) : event.Alike event := by
  cases event with
  | entered tag depth => exact .entered depth (.refl tag)
  | invoked tag depth trace locals globals => exact .invoked depth trace locals globals (.refl tag)
  | faulted tag depth fault locals globals => exact .faulted depth locals globals (.refl tag) rfl
  | called tag procedure => exact .called procedure (.refl tag)
  | started command arguments => exact .started command arguments
  | left tag depth outcome => exact .left depth outcome (.refl tag)

/-! ## Frames that mirror each other -/

/-- **How two runs are compared.** -/
structure Mirror where
  /-- What is asked of the files of the two. -/
  files : Files → Files → Prop
  /-- Whether their journals are compared, too. -/
  journals : Prop
  /-- Where the first run may be cut off without a word about the second. -/
  free : Frame → Prop

namespace Mirror

/-- **Procedures that mirror each other**: under the same names there are
tags that are alike. -/
def Procedures : Dict Tag → Dict Tag → Prop :=
  List.Forall₂ fun a b => b.1 = a.1 ∧ a.2.Alike b.2

variable (M : Mirror)

/-- **Worlds that mirror each other.** -/
structure Worlds (v w : World) : Prop where
  globals : w.globals = v.globals
  procedures : Procedures v.procedures w.procedures
  searchPath : w.searchPath = v.searchPath
  files : M.files v.files w.files
  handles : w.handles = v.handles
  locks : w.locks = v.locks
  trace : w.trace = v.trace
  clock : w.clock = v.clock
  system : w.system = v.system
  starts : w.starts = v.starts
  handlers : w.handlers = v.handlers
  /-- Their journals keep the same events, -/
  keeps : M.journals → ∀ e f, Event.Alike e f → w.keeps f = v.keeps e
  /-- and have kept the same ones. -/
  journal : M.journals → List.Forall₂ Event.Alike v.journal w.journal

/-- **Frames that mirror each other.** -/
structure Frames (s t : Frame) : Prop where
  locals : t.locals = s.locals
  world : M.Worlds s.world t.world

variable {M}

/-! ## What reads the same -/

/-- A procedure of one name is there for both or for neither. -/
theorem Procedures.get? {v w : Dict Tag} (h : Procedures v w) (name : String) :
    Option.Rel Tag.Alike (v.get? name) (w.get? name) := by
  induction h with
  | nil => exact .none
  | @cons a b _ _ hab _ ih =>
    obtain ⟨key, tag⟩ := a
    obtain ⟨key', tag'⟩ := b
    obtain ⟨rfl, htags⟩ : key' = key ∧ tag.Alike tag' := hab
    unfold Dict.get?
    split
    · exact .some htags
    · exact ih

theorem Procedures.insert {v w : Dict Tag} (h : Procedures v w) (name : String) {a b : Tag}
    (hab : a.Alike b) : Procedures (v.insert name a) (w.insert name b) := by
  induction h with
  | nil => exact .cons ⟨rfl, hab⟩ .nil
  | @cons x y _ _ hxy hrest ih =>
    obtain ⟨key, tag⟩ := x
    obtain ⟨key', tag'⟩ := y
    obtain ⟨rfl, htags⟩ : key' = key ∧ tag.Alike tag' := hxy
    unfold Dict.insert
    split
    · exact .cons ⟨rfl, htags⟩ ih
    · split
      · exact .cons ⟨rfl, hab⟩ hrest
      · exact .cons ⟨rfl, hab⟩ (.cons ⟨rfl, htags⟩ hrest)

/-- One procedure under many names. -/
theorem Procedures.insertAll {v w : Dict Tag} (h : Procedures v w) (names : List String)
    {a b : Tag} (hab : a.Alike b) :
    Procedures (v.insertAll (names.map fun name => (name, a)))
      (w.insertAll (names.map fun name => (name, b))) := by
  induction names generalizing v w with
  | nil => exact h
  | cons name rest ih => exact ih (h.insert name hab)

theorem Procedures.keys_eq {v w : Dict Tag} (h : Procedures v w) : w.keys = v.keys := by
  induction h with
  | nil => rfl
  | cons hab _ ih => exact congrArg₂ List.cons hab.1 ih

namespace Frames

variable {s t : Frame} (h : M.Frames s t)
include h

theorem lookup (key : String) : t.lookup key = s.lookup key := by
  unfold Frame.lookup
  rw [h.locals, h.world.globals]

theorem read (key : String) : t.read key = s.read key := by
  unfold Frame.read
  rw [h.lookup]

theorem substitute (text : String) : t.substitute text = s.substitute text := by
  unfold Frame.substitute
  rw [h.locals, h.world.globals]

theorem handler? : t.handler? = s.handler? := by
  unfold Frame.handler?
  rw [h.lookup]

theorem primaryDir : t.world.primaryDir = s.world.primaryDir := by
  unfold World.primaryDir
  rw [h.world.searchPath]

/-! ## What keeps frames that mirror each other -/

/-- A change of the local variables. -/
theorem change_locals (f : Vars → Vars) :
    M.Frames { s with locals := f s.locals } { t with locals := f t.locals } :=
  ⟨congrArg f h.locals, h.world⟩

theorem setLocal (key : String) (value : Value) :
    M.Frames (s.setLocal key value) (t.setLocal key value) :=
  h.change_locals fun locals => locals.insert key value

theorem setGlobal (key : String) (value : Value) :
    M.Frames (s.setGlobal key value) (t.setGlobal key value) :=
  ⟨h.locals, { h.world with
    globals := congrArg (fun globals : Vars => globals.insert key value) h.world.globals }⟩

end Frames

/-- **Noting events that are alike.** -/
theorem Worlds.note {v w : World} (h : M.Worlds v w) {e f : Event} (hevents : e.Alike f) :
    M.Worlds (v.note e) (w.note f) := by
  obtain ⟨journal, hv⟩ := v.exists_note_eq e
  obtain ⟨other, hw⟩ := w.exists_note_eq f
  have hjournal : M.journals → List.Forall₂ Event.Alike (v.note e).journal (w.note f).journal := by
    intro hM
    unfold World.note
    rw [h.keeps hM e f hevents]
    split
    · exact .cons hevents (h.journal hM)
    · exact h.journal hM
  rw [hv, hw] at hjournal ⊢
  exact ⟨h.globals, h.procedures, h.searchPath, h.files, h.handles, h.locks, h.trace, h.clock,
    h.system, h.starts, h.handlers, h.keeps, hjournal⟩

namespace Frames

variable {s t : Frame} (h : M.Frames s t)
include h

theorem note {e f : Event} (hevents : e.Alike f) :
    M.Frames { s with world := s.world.note e } { t with world := t.world.note f } :=
  ⟨h.locals, h.world.note hevents⟩

theorem start (program : String) (arguments : List String) :
    M.Frames { s with world := s.world.start program arguments }
      { t with world := t.world.start program arguments } := by
  have hnote := h.note (.started program arguments)
  exact ⟨hnote.locals, { hnote.world with starts := congrArg (· + 1) h.world.starts }⟩

/-- Files that correspond, and the same locks. -/
theorem with_files {v w : Files} (hfiles : M.files v w) {locks others : Locks}
    (hlocks : others = locks) :
    M.Frames { s with world := { s.world with files := v, locks := locks } }
      { t with world := { t.world with files := w, locks := others } } :=
  ⟨h.locals, { h.world with files := hfiles, locks := hlocks }⟩

/-! ## Around a tag -/

variable {a b : Tag} (hab : a.Alike b) (depth : Depth)
include hab

theorem enter : M.Frames (s.enter a depth) (t.enter b depth) := by
  have hset := (h.setLocal Reserved.depth (.int (Int64.ofInt depth))).setLocal
    Reserved.logDatetime (.str s.world.clock)
  have hclock : t.world.clock = s.world.clock := h.world.clock
  have hnote := hset.note (.entered depth hab)
  unfold Frame.enter
  dsimp only
  rw [hclock]
  refine ⟨hnote.locals, { hnote.world with trace := ?_ }⟩
  show b.name :: t.world.trace = a.name :: s.world.trace
  rw [hab.name, h.world.trace]

theorem invoke : M.Frames (s.invoke a depth) (t.invoke b depth) := by
  have hevents : (Event.invoked a depth s.world.trace s.locals s.world.globals).Alike
      (.invoked b depth t.world.trace t.locals t.world.globals) := by
    rw [h.world.trace, h.locals, h.world.globals]
    exact .invoked depth _ _ _ hab
  exact h.note hevents

theorem leave (outcome : Outcome) :
    M.Frames (s.leave a depth outcome) (t.leave b depth outcome) := by
  have hnote := h.note (.left depth outcome hab)
  refine ⟨h.locals, { hnote.world with trace := ?_ }⟩
  show t.world.trace.tail = s.world.trace.tail
  rw [h.world.trace]

theorem faultReport {f g : Fault} (hcause : g.cause = f.cause) :
    t.faultReport b g = s.faultReport a f := by
  unfold Frame.faultReport Fault.describe
  rw [hab.name, hab.showAttrs, hcause, h.world.trace, h.world.clock]

theorem report {f g : Fault} (hcause : g.cause = f.cause) :
    M.Frames (s.report a depth f) (t.report b depth g) := by
  have hevents : (Event.faulted a depth f s.locals s.world.globals).Alike
      (.faulted b depth g t.locals t.world.globals) := by
    rw [h.locals, h.world.globals]
    exact .faulted depth _ _ hab hcause
  have hnoted := h.note hevents
  unfold Frame.report
  dsimp only
  rw [hnoted.faultReport hab hcause]
  exact hnoted.setLocal Reserved.debug _

end Frames

/-- **What a handler records** is the same if the files then are. -/
theorem Worlds.record {v w : World} (h : M.Worlds v w) (handler : Handler)
    (value : String → Value)
    (hfiles : M.files (v.record handler value).files (w.record handler value).files) :
    M.Worlds (v.record handler value) (w.record handler value) := by
  rw [v.record_eq_with_files, w.record_eq_with_files]
  exact { h with files := hfiles, locks := congrArg (Locks.ask · handler.path) h.locks }

/-- **After a fault**, if the handler in force does the same to both. -/
theorem Frames.fault {s t : Frame} (h : M.Frames s t) {a b : Tag} (hab : a.Alike b) (depth : Depth)
    {f g : Fault} (hcause : g.cause = f.cause)
    (hrecord : ∀ handler, (s.report a depth f).handler? = some handler →
      ∀ v w, M.Worlds v w → ∀ value, M.Worlds (v.record handler value) (w.record handler value)) :
    M.Frames (s.fault a depth f) (t.fault b depth g) := by
  have hreport := h.report hab depth hcause
  unfold Frame.fault
  dsimp only
  rw [hreport.handler?]
  split
  · next handler hhandler =>
    have hread : (t.report b depth g).read = (s.report a depth f).read := funext hreport.read
    rw [hread]
    exact ⟨hreport.locals, hrecord handler hhandler _ _ hreport.world _⟩
  · exact hreport

end Mirror

end TagScript
