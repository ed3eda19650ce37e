import TagScript.Proofs.Answering
import TagScript.Proofs.Asking

/-!
# What a run does not look at

No script reads the journal, and the trace of a run is read for the reports of
its faults alone. So a run in which nothing faults does not depend on either;
and on a variable it depends only if one of its tags consults it, in a text
that it reads or by name. Each tag binds its depth and the time, whether
anything consults them or not, and a run that does not may as well be executed
elsewhere in a script, or later.

A `Veil` is what is hidden of a run: it relates frames that are the same but
for that. Runs that do not look behind the veil end in accord
(`Engine.veiled_of_respects`).
-/

namespace TagScript

/-- A text reads the same where the variables are that it has markers of. -/
theorem Scope.substitute_congr {locals globals others shared : Vars} {text : String}
    (h : ∀ name, .marker name ∈ pieces text.toList →
      lookup others shared (String.ofList name) = lookup locals globals (String.ofList name)) :
    substitute others shared text = substitute locals globals text := by
  unfold substitute
  congr 1
  refine List.map_congr_left fun piece hpiece => ?_
  cases piece with
  | char c => rfl
  | marker name =>
    have hinsertion : insertion? others shared (String.ofList name) =
        insertion? locals globals (String.ofList name) := by
      unfold insertion?
      rw [h name hpiece]
    exact congrArg (fun text : Option String => text.getD (String.ofList (Scope.marker name)))
      hinsertion

/-- **The variables that a tag consults**, told from the frame in which its
runner begins. -/
inductive Tag.Consults (tag : Tag) (start : Frame) (key : String) : Prop where
  /-- A text that it reads has a marker of it. -/
  | text {name text : String} (hreads : tag.ReadsText name) (hattr : (name, some text) ∈ tag.attrs)
      (hmarker : .marker key.toList ∈ Scope.pieces text.toList)
  /-- It looks it up by its name. -/
  | name (h : tag.LooksUp start key)

/-- **What is hidden of a run**, which may be executed at another depth, or at
another time. -/
structure Veil where
  /-- The local variables that may differ. -/
  hidden : List String
  /-- How much deeper the first run is. -/
  shift : Depth
  /-- Where the first run may be cut off without a word about the second. -/
  cutoff : Frame
  /-- Nothing may differ but what each tag binds. -/
  covers : hidden ⊆ [Reserved.depth, Reserved.logDatetime]
  /-- The depths are the same unless they are hidden. -/
  level : Reserved.depth ∉ hidden → shift = 0

namespace Veil

variable {V : Veil}

/-- **Frames that are the same but for what is hidden**, for the trace and for
the journal. -/
structure Frames (V : Veil) (s t : Frame) : Prop where
  locals (key : String) (h : key ∉ V.hidden) : t.locals.get? key = s.locals.get? key
  /-- If nothing is hidden, the local variables are the same altogether. -/
  same (h : V.hidden = []) : t.locals = s.locals
  globals : t.world.globals = s.world.globals
  procedures : t.world.procedures = s.world.procedures
  searchPath : t.world.searchPath = s.world.searchPath
  files : t.world.files = s.world.files
  handles : t.world.handles = s.world.handles
  system : t.world.system = s.world.system
  starts : t.world.starts = s.world.starts
  locks : t.world.locks = s.world.locks
  handlers : t.world.handlers = s.world.handlers
  clock (h : Reserved.logDatetime ∉ V.hidden) : t.world.clock = s.world.clock

theorem notMem_hidden {key : String} (h : key ∉ [Reserved.depth, Reserved.logDatetime]) :
    key ∉ V.hidden :=
  fun hkey => h (V.covers hkey)

namespace Frames

variable {s t : Frame}

theorem refl (s : Frame) : V.Frames s s :=
  ⟨fun _ _ => rfl, fun _ => rfl, rfl, rfl, rfl, rfl, rfl, rfl, rfl, rfl, rfl, fun _ => rfl⟩

variable (h : V.Frames s t)
include h

/-- A variable is bound, to the same unless it is hidden. -/
theorem bind (key : String) (value other : Value) (hvalue : key ∉ V.hidden → other = value) :
    V.Frames (s.setLocal key value) (t.setLocal key other) where
  locals name hname := by
    show (t.locals.insert key other).get? name = (s.locals.insert key value).get? name
    by_cases heq : name = key
    · subst heq
      rw [Dict.get?_insert_self, Dict.get?_insert_self, hvalue hname]
    · rw [Dict.get?_insert_of_ne _ _ heq, Dict.get?_insert_of_ne _ _ heq, h.locals name hname]
  same hnone := by
    show t.locals.insert key other = s.locals.insert key value
    rw [h.same hnone, hvalue (hnone ▸ List.not_mem_nil)]
  globals := h.globals
  procedures := h.procedures
  searchPath := h.searchPath
  files := h.files
  handles := h.handles
  system := h.system
  starts := h.starts
  locks := h.locks
  handlers := h.handlers
  clock := h.clock

theorem unbind (key : String) :
    V.Frames { s with locals := s.locals.erase key } { t with locals := t.locals.erase key } where
  locals name hname := by
    rw [Dict.get?_erase, Dict.get?_erase, h.locals name hname]
  same hnone := congrArg (Dict.erase · key) (h.same hnone)
  globals := h.globals
  procedures := h.procedures
  searchPath := h.searchPath
  files := h.files
  handles := h.handles
  system := h.system
  starts := h.starts
  locks := h.locks
  handlers := h.handlers
  clock := h.clock

/-- A hidden variable may be bound in one of the two alone. -/
theorem bind_left {key : String} (hkey : key ∈ V.hidden) (value : Value) :
    V.Frames (s.setLocal key value) t where
  locals name hname := by
    rw [h.locals name hname]
    exact (Dict.get?_insert_of_ne _ _ fun heq : name = key => hname (heq ▸ hkey)).symm
  same hnone := absurd hkey (hnone ▸ List.not_mem_nil)
  globals := h.globals
  procedures := h.procedures
  searchPath := h.searchPath
  files := h.files
  handles := h.handles
  system := h.system
  starts := h.starts
  locks := h.locks
  handlers := h.handlers
  clock := h.clock

/-- What is noted in one of them does not matter, -/
theorem noted_left (event : Event) : V.Frames { s with world := s.world.note event } t := by
  obtain ⟨journal, hs⟩ := s.world.exists_note_eq event
  rw [hs]
  exact { h with }

/-- nor does the trace. -/
theorem traced_left (trace : List String) :
    V.Frames { s with world := { s.world with trace } } t :=
  { h with }

/-- Whatever is noted in both, -/
theorem noted (e f : Event) :
    V.Frames { s with world := s.world.note e } { t with world := t.world.note f } := by
  obtain ⟨journal, hs⟩ := s.world.exists_note_eq e
  obtain ⟨other, ht⟩ := t.world.exists_note_eq f
  rw [hs, ht]
  exact { h with }

/-- and whatever the trace is. -/
theorem traced (trace other : List String) :
    V.Frames { s with world := { s.world with trace } }
      { t with world := { t.world with trace := other } } :=
  { h with }

variable (a b : Tag)

/-- **Tags may be entered at depths that differ**, if these are hidden. -/
theorem enter (depth depth' : Depth) (hdepth : Reserved.depth ∉ V.hidden → depth' = depth) :
    V.Frames (s.enter a depth) (t.enter b depth') := by
  have hbound := h.bind Reserved.depth (.int (Int64.ofInt depth)) (.int (Int64.ofInt depth'))
    fun hseen => by rw [hdepth hseen]
  have hdated := hbound.bind Reserved.logDatetime (.str s.world.clock) (.str t.world.clock)
    fun hseen => by rw [h.clock hseen]
  exact (hdated.noted (.entered a depth) (.entered b depth')).traced _ _

theorem invoke (depth depth' : Depth) : V.Frames (s.invoke a depth) (t.invoke b depth') :=
  h.noted _ _

theorem leave (depth depth' : Depth) (outcome outcome' : Outcome) :
    V.Frames (s.leave a depth outcome) (t.leave b depth' outcome') :=
  (h.noted (.left a depth outcome) (.left b depth' outcome')).traced _ _

/-- **A tag around changes nothing** if all that it binds is hidden. -/
theorem begin_left (hdepth : Reserved.depth ∈ V.hidden) (htime : Reserved.logDatetime ∈ V.hidden)
    (outer : Depth) : V.Frames (s.begin a outer) t := by
  have hbound := (h.bind_left hdepth (.int (Int64.ofInt (outer + 1)))).bind_left htime
    (.str s.world.clock)
  exact ((hbound.noted_left (.entered a (outer + 1))).traced_left _).noted_left _

end Frames

/-- **What is the same behind a veil accords.** -/
def accord (V : Veil) : Accord where
  Tags := Eq
  Frames := V.Frames
  files := Eq
  free s := s = V.cutoff
  likens := Tag.likens_eq
  globals h := h.globals
  searchPath h := h.searchPath
  handles h := h.handles
  system h := h.system
  starts h := h.starts
  handlers h := h.handlers
  stores h := h.files.symm
  procedure? {s t} h name := by
    rw [h.procedures]
    cases s.world.procedures.get? name with
    | none => exact .none
    | some _ => exact .some rfl
  privileges h := h.locals _ (V.notMem_hidden (by decide))
  rowIndex h := h.locals _ (V.notMem_hidden (by decide))
  copied h hafter := { hafter with locals := h.locals, same := h.same }
  setLocal h key value := h.bind key value value fun _ => rfl
  unbound h := h.unbind
  setGlobal h key value :=
    { h with globals := congrArg (fun globals : Vars => globals.insert key value) h.globals }
  defined {s t a b} h hab names := by
    subst hab
    exact { h with procedures := congrArg (Dict.insertAll · _) h.procedures }
  called h _ name := h.noted _ _
  started h _ _ :=
    have hnoted := h.noted _ _
    { hnoted with starts := congrArg (· + 1) h.starts }
  installed h := { h with handlers := congrArg (· + 1) h.handlers }
  held h name text :=
    { h with handles := congrArg (fun handles : Dict String => handles.insert name text) h.handles }
  locked h path := { h with locks := congrArg (Locks.ask · path) h.locks }
  stored h _ _ hfiles := { h with files := hfiles.symm }

variable {s t : Frame}

/-- **A tag that consults nothing hidden sees the same.** -/
theorem sees {tag : Tag} (h : V.Frames s t) (hnot : ∀ key ∈ V.hidden, ¬tag.Consults s key) :
    V.accord.Sees tag s t where
  texts {name text} hreads hattr {u v} h := by
    have h : V.Frames u v := h
    refine Scope.substitute_congr fun marked hmarker => ?_
    have hseen : String.ofList marked ∉ V.hidden := fun hkey =>
      hnot _ hkey (.text hreads hattr (String.toList_ofList ▸ hmarker))
    unfold Scope.lookup
    rw [h.locals _ hseen, h.globals]
  values hlooks := h.locals _ fun hkey => hnot _ hkey (.name hlooks)

/-- **The boundary around tags that do not fault.** -/
theorem boundary {a b : Tag} {depth depth' : Depth} {x y : Run Outcome}
    {W : Outcome → Outcome → Prop}
    (hxy : V.accord.Endings W (x (s.enter a depth)) (y (t.enter b depth')))
    (hfault : ∀ fault u, x (s.enter a depth) ≠ .failed fault u) :
    V.accord.Endings W (TagScript.boundary a depth x s) (TagScript.boundary b depth' y t) := by
  unfold TagScript.boundary
  revert hxy hfault
  generalize x (s.enter a depth) = first
  generalize y (t.enter b depth') = second
  intro hxy hfault
  cases hxy with
  | @done outcome outcome' _ _ houtcome h =>
    exact .done houtcome (Frames.leave h a b depth depth' outcome outcome')
  | failed _ _ => exact absurd rfl (hfault _ _)
  | exhausted h => exact .exhausted h
  | free h _ => exact .free h _

end Veil

/-- **An execution that a veil changes nothing for**: executed in any frame
that is the same but for what is hidden, it ends in accord. -/
def Execution.Veiled (limit : Option Nat) (V : Veil) (y : Execution) : Prop :=
  ∀ t, V.Frames y.frame t →
    V.accord.Endings Eq ((Engine.standard limit).ending y)
      ((Engine.standard limit).execute (y.means + 1) y.tag (y.outer - V.shift) t)

/-- **An execution that does not look behind a veil**: it does not fault, would
not be too deep where it might be executed instead, and consults nothing
hidden. -/
structure Execution.Respects (limit : Option Nat) (V : Veil) (y : Execution) : Prop where
  sound (fault : Fault) (u : Frame) : (Engine.standard limit).insideOf y ≠ .failed fault u
  within (d : Nat) (h : limit = some d) : (y.outer - V.shift + 1).number ≤ d
  consults (key : String) (h : key ∈ V.hidden) : ¬y.tag.Consults y.start key

namespace Engine

variable {limit : Option Nat} {first x y : Execution} {V : Veil}

/-- An execution that does not fault is not too deep. -/
theorem within_of_sound (h : ∀ fault u, (standard limit).insideOf y ≠ .failed fault u) :
    ∀ d, limit = some d → (y.outer + 1).number ≤ d := by
  intro d hlimit
  refine Nat.le_of_not_lt fun hexceeds =>
    h (.of (.tooDeep (y.outer + 1).number d)) (y.frame.enter y.tag (y.outer + 1)) ?_
  exact congrFun (dispatch_of_exceeds (e := standard limit) hlimit hexceeds
    ((standard limit).execute y.means) y.means) (y.frame.enter y.tag (y.outer + 1))

/-- What it does not ask for may be cut off, if what it asks for is veiled. -/
theorem exists_exec_of_veiled (hasked : ∀ z, (standard limit).Executes x z → z.Veiled limit V) :
    ∃ exec : Tag → Depth → Run Outcome,
      (∀ child depth s, exec child depth s = .exhausted V.cutoff ∨
        exec child depth s = (standard limit).execute x.means child depth s ∧
          ∀ t, V.Frames s t → V.accord.Endings Eq (exec child depth s)
            ((standard limit).execute x.means child (depth - V.shift) t)) ∧
      (standard limit).dispatch ⟨x.tag, x.outer + 1, exec, x.means⟩
        (x.frame.enter x.tag (x.outer + 1)) = (standard limit).insideOf x := by
  let P (child : Tag) (depth : Depth) (s : Frame) (ending : Ending Outcome) : Prop :=
    ending = .exhausted V.cutoff ∨
      ending = (standard limit).execute x.means child depth s ∧
        ∀ t, V.Frames s t → V.accord.Endings Eq ending
          ((standard limit).execute x.means child (depth - V.shift) t)
  refine @exists_exec_of_asks limit x (fun _ => .exhausted V.cutoff) P (fun _ _ _ => .inl rfl)
    (of_asksFor P (fun hnone child depth s => .inr ⟨?_, fun t h => ?_⟩) fun z hz => .inr ⟨?_, ?_⟩)
  · rw [hnone]
    rfl
  · rw [hnone]
    exact .exhausted h
  · rw [hz.means]
    rfl
  · rw [hz.means]
    exact hasked z hz

/-- Whatever is cut off or veiled is executed in accord. -/
theorem executes_of_veiled {exec : Tag → Depth → Run Outcome} {means : Nat}
    (hexec : ∀ child depth s, exec child depth s = .exhausted V.cutoff ∨
      exec child depth s = (standard limit).execute means child depth s ∧
        ∀ t, V.Frames s t → V.accord.Endings Eq (exec child depth s)
          ((standard limit).execute means child (depth - V.shift) t)) (depth : Depth) :
    V.accord.Executes exec ((standard limit).execute means) depth (depth - V.shift) := by
  intro a b hab s t h
  obtain rfl : a = b := hab
  obtain hcut | ⟨_, hveiled⟩ := hexec a depth s
  · rw [hcut]
    exact .free rfl _
  · exact hveiled t h

/-- **An execution that respects a veil is veiled**, if those that it asks for
are. -/
theorem veiled_step (h : y.Respects limit V)
    (hasked : ∀ z, (standard limit).Executes y z → z.Veiled limit V) : y.Veiled limit V := by
  intro t ht
  obtain ⟨exec, hexec, hruns⟩ := exists_exec_of_veiled hasked
  have hdepth : y.outer + 1 - V.shift = y.outer - V.shift + 1 := Int.add_right_comm _ _ _
  have hexecutes : V.accord.Executes exec ((standard limit).execute y.means) (y.outer + 1)
      (y.outer - V.shift + 1) := by
    rw [← hdepth]
    exact executes_of_veiled hexec (y.outer + 1)
  have hentered := ht.enter y.tag y.tag (y.outer + 1) (y.outer - V.shift + 1) fun hseen => by
    rw [V.level hseen, Int.sub_zero]
  have hinvoked := hentered.invoke y.tag y.tag (y.outer + 1) (y.outer - V.shift + 1)
  have hinside : V.accord.Endings Eq
      ((standard limit).dispatch ⟨y.tag, y.outer + 1, exec, y.means⟩
        (y.frame.enter y.tag (y.outer + 1)))
      ((standard limit).dispatch
        ⟨y.tag, y.outer - V.shift + 1, (standard limit).execute y.means, y.means⟩
        (t.enter y.tag (y.outer - V.shift + 1))) :=
    Accord.dispatch (K := V.accord) rfl hentered (within_of_sound h.sound) h.within hinvoked
      (Veil.sees hinvoked h.consults) (Accord.answers_of_eq (fun _ _ => .rfl) y.tag hinvoked)
      hexecutes
  rw [hruns] at hinside
  exact Veil.boundary hinside h.sound

/-- **A run that does not look behind a veil is veiled.** -/
theorem veiled_of_respects
    (h : ∀ names y, (standard limit).Encloses first names y → y.Respects limit V) :
    first.Veiled limit V :=
  Encloses.induction (P := fun y => y.Veiled limit V)
    (fun names y hy => veiled_step (h names y hy)) .outermost

end Engine

end TagScript
