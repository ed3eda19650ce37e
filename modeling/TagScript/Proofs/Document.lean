import TagScript.Proofs.Json
import TagScript.Proofs.Storage

/-!
# What is dumped is what is loaded

A document goes from the tag that delivers it to the tag that is given it
by way of a variable or of a file, a `Depot`. Leaving the one tag and
entering the other touches neither, so the second is given what the first
delivered. With JSON written by the one and read by the other, the value
of a variable survives the journey as far as JSON carries it.

Tags are described by what their attributes read as where their runners
begin, markers and blanks having been dealt with.
-/

namespace TagScript

open Runner (Target)

/-- **Where a document is kept** between the tag that delivers it and the
tag that is given it. -/
inductive Depot where
  /-- A variable. -/
  | key (name : String)
  /-- A file. -/
  | file (name : String)

namespace Depot

/-- **A tag that delivers to a depot**, going by what its attributes read as:
to a variable that is not reserved, or to a file that can be written to
in the first directory of the search path. -/
inductive IsGoal (tag : Tag) (s : Frame) : Depot → Prop where
  | key {name : String} (hkey : s.attrKey tag "_to_key" = name) (hnamed : name.isEmpty = false)
      (hopen : Reserved.isReserved name = false) : IsGoal tag s (.key name)
  | file {name dir : String} {rest : List String} {place : Location}
      (hkey : s.attrKey tag "_to_key" = "") (hname : s.attrKey tag "_to_file" = name)
      (hnamed : name.isEmpty = false) (hplain : Target.ofText name = .file name)
      (hdir : s.world.searchPath = dir :: rest)
      (hplace : s.world.files.Writable (Path.join dir name) place) : IsGoal tag s (.file name)

/-- **A tag that is given what is in a depot.** -/
inductive IsOrigin (tag : Tag) (s : Frame) : Depot → Prop where
  | key {name : String} (hkey : s.attrKey tag "key" = name) (hnamed : name.isEmpty = false) :
      IsOrigin tag s (.key name)
  | file {name : String} (hkey : s.attrKey tag "key" = "")
      (hcontent : s.attrText tag "content" = none) (hname : s.attrKey tag "_from_file" = name)
      (hnamed : name.isEmpty = false) (hplain : Target.ofText name = .file name) :
      IsOrigin tag s (.file name)

/-- Whether a text is what is kept in a depot. -/
def Holds : Depot → String → Frame → Prop
  | .key name, text, s => Reserved.isReserved name = false ∧ s.locals.get? name = some (.str text)
  | .file name, text, s => s.world.files.readText (s.world.resolve name) = .ok text

variable {depot : Depot} {tag : Tag} {s t : Frame} {text : String}

/-- What is kept is kept as long as no variable that a script may bind, no
file and no directory of the search path changes. -/
theorem Holds.of_same (h : depot.Holds text s)
    (hlocals : ∀ key, Reserved.isReserved key = false → t.locals.get? key = s.locals.get? key)
    (hfiles : t.world.files = s.world.files) (hpath : t.world.searchPath = s.world.searchPath) :
    depot.Holds text t := by
  cases depot with
  | key name => exact ⟨h.1, (hlocals name h.1).trans h.2⟩
  | file name =>
    have hresolve : t.world.resolve name = s.world.resolve name := by
      unfold World.resolve
      rw [hfiles, hpath]
    show t.world.files.readText (t.world.resolve name) = .ok text
    rw [hfiles, hresolve]
    exact h

/-- The next tag finds what the last one has delivered. -/
theorem Holds.begin_leave {last next : Tag} {depth outer : Depth} {outcome : Outcome}
    (h : depot.Holds text s) : depot.Holds text ((s.leave last depth outcome).begin next outer) :=
  h.of_same (fun _ hopen => Frame.get?_begin hopen)
    (Frame.files_begin.trans (Frame.files_leave outcome))
    (Frame.searchPath_begin.trans (Frame.searchPath_leave outcome))

/-- **A document is kept where it was delivered to.** -/
theorem IsGoal.deliver (h : depot.IsGoal tag s) (text : String) :
    ∃ t, Runner.deliver tag text s = .done .ok t ∧ depot.Holds text t := by
  unfold Runner.deliver
  rw [Run.bind_attrKey]
  cases h with
  | @key name hkey hnamed hopen =>
    refine ⟨s.setLocal name (.str text), ?_, hopen, Dict.get?_insert_self _ _ _⟩
    rw [hkey, hnamed, Bool.not_false, if_pos rfl,
      Run.bind_of_done (Run.store_of_not_reserved hopen _ s)]
    rfl
  | @file name dir rest place hkey hname hnamed hplain hdir hplace =>
    have hfiles : s.world.files.written .truncate place (fun _ => text) =
        s.world.files.put place (.file (.text text)) :=
      congrArg (fun text => s.world.files.put place (.file (.text text))) String.empty_append
    refine ⟨s.written .truncate (Path.join dir name) place fun _ => text, ?_, ?_⟩
    · rw [hkey, if_neg (by decide), Run.bind_attrKey, hname, hnamed, if_neg Bool.false_ne_true, hplain]
      dsimp only
      rw [Run.bind_of_done (Run.outputPath_of_searchPath hdir name),
        Run.bind_of_done (Run.writeFile_of_writable hplace _ _ _)]
      rfl
    · have hput := hplace.put (.text text)
      rw [← hfiles] at hput
      refine World.readText_resolve hdir hput ?_
      show Files.entry? (s.world.files.written .truncate place fun _ => text) place = _
      rw [hfiles]
      exact Files.entry?_put_self hplace.ne_nil _ _

/-- **A tag is given what is kept**, unless it begins with a mark that is not
read. -/
theorem IsOrigin.readSource (h : depot.IsOrigin tag s) (hholds : depot.Holds text s)
    (hmark : Text.dropMarks text = text) : Runner.readSource tag s = .done text s := by
  unfold Runner.readSource
  rw [Run.bind_attrKey]
  cases h with
  | @key name hkey hnamed =>
    have hread : Run.read name s = .done (.str text) s := by
      show Ending.done (s.read name) s = _
      rw [Frame.read, Frame.lookup, Scope.lookup, hholds.2]
      rfl
    rw [hkey, hnamed, Bool.not_false, if_pos rfl, Run.bind_of_done hread]
    rfl
  | @file name hkey hcontent hname hnamed hplain =>
    have hread := Run.readFile_of_readText hholds
    rw [hmark] at hread
    rw [hkey, if_neg (by decide), Run.bind_attrText, hcontent]
    dsimp only
    rw [Run.bind_attrKey, hname, hnamed, Bool.not_false, if_pos rfl, hplain]
    exact hread

end Depot

/-! ## JSON in and out -/

/-- **A tag that dumps a variable into a depot**, going by what its attributes
read as. -/
structure Tag.Dumps (tag : Tag) (s : Frame) (key : String) (depot : Depot) : Prop where
  /-- It is a tag of that kind. -/
  name_eq : tag.name = "json_dump"
  /-- Its encoding is a known one. -/
  encoded : Run.encodings.contains (Text.lower (s.attrKey tag "encoding")) = true
  /-- It names the variable. -/
  key_eq : s.attrKey tag "key" = key
  /-- The variable has a name. -/
  named : key.isEmpty = false
  /-- It delivers to the depot. -/
  goal : depot.IsGoal tag s

/-- **A tag that loads a variable from a depot.** -/
structure Tag.Loads (tag : Tag) (s : Frame) (depot : Depot) (key : String) : Prop where
  /-- It is a tag of that kind. -/
  name_eq : tag.name = "json_load"
  /-- Its encoding is a known one. -/
  encoded : Run.encodings.contains (Text.lower (s.attrKey tag "encoding")) = true
  /-- It is given what is in the depot. -/
  origin : depot.IsOrigin tag s
  /-- It names the variable. -/
  key_eq : s.attrKey tag "_to_key" = key
  /-- The variable has a name. -/
  named : key.isEmpty = false
  /-- The variable is not reserved. -/
  free : Reserved.isReserved key = false

namespace Runner

variable {site : Site} {s : Frame} {depot : Depot} {key : String}

/-- The variable's value is kept in the depot, written as JSON. -/
theorem dumpJson_of_dumps (h : site.tag.Dumps s key depot) :
    ∃ t, dumpJson site s = .done .ok t ∧ depot.Holds (Json.text (s.read key)) t := by
  obtain ⟨t, hdeliver, hholds⟩ := h.goal.deliver (Json.text (s.read key))
  refine ⟨t, ?_, hholds⟩
  unfold dumpJson
  rw [Run.bind_of_done (Run.checkEncoding_of_contains h.encoded), Run.bind_attrKey, h.key_eq,
    h.named]
  exact hdeliver

/-- The value that is kept in the depot, written as JSON, is bound. -/
theorem loadJson_of_loads {text : String} {v : Value} (h : site.tag.Loads s depot key)
    (hholds : depot.Holds text s) (hmark : Text.dropMarks text = text)
    (hparse : Json.parse? text = some v) :
    loadJson site s = .done .ok (s.setLocal key v) := by
  unfold loadJson
  rw [Run.bind_of_done (Run.checkEncoding_of_contains h.encoded),
    Run.bind_of_done (h.origin.readSource hholds hmark), hparse]
  dsimp only
  rw [Run.bind_attrKey, h.key_eq, h.named, if_neg Bool.false_ne_true,
    Run.bind_of_done (Run.store_of_not_reserved h.free v s)]
  rfl

end Runner

namespace Engine

/-- **Dumping and loading restores a value.** Let a variable hold a value
without doubles whose arrays and maps nest no deeper than JSON is read,
and let a tag dump the variable into another variable or into a file. Then
the tag succeeds, and every tag that next loads a variable from there
succeeds too and leaves in that variable what JSON carries of the value:
null for an iterator or a handler, wherever it stands, and otherwise the
value itself. -/
theorem load_restores_dump (limit : Option Nat) (means : Nat) {dump : Tag} {outer : Depth}
    {s : Frame} {a : String} {v : Value} {depot : Depot}
    (hdump : dump.Dumps (s.begin dump outer) a depot)
    (hdepth : ∀ d, limit = some d → (outer + 1).number ≤ d)
    (hfree : Reserved.isReserved a = false) (hvalue : s.lookup a = some v)
    (hplain : Json.Plain Json.maxLevels v) :
    ∃ u, (standard limit).execute (means + 1) dump outer s = .done .ok u ∧
      ∀ (load : Tag) (outer' : Depth) (b : String), load.Loads (u.begin load outer') depot b →
        (∀ d, limit = some d → (outer' + 1).number ≤ d) →
        ∃ w, (standard limit).execute (means + 1) load outer' u = .done .ok w ∧
          w.locals.get? b = some (Json.carried v) := by
  have hread : (s.begin dump outer).read a = v := by
    rw [Frame.read, Frame.lookup_begin hfree, hvalue]
    rfl
  have hmem : (dump.name, Runner.dumpJson) ∈ builtins := by
    simp [builtins, hdump.name_eq]
  obtain ⟨t, hrun, hholds⟩ :=
    @Runner.dumpJson_of_dumps ((standard limit).site means dump outer) _ _ _ hdump
  rw [hread] at hholds
  refine ⟨_, boundary_of_done ((inside_of_mem hmem hdepth means s).trans hrun), ?_⟩
  intro load outer' b hload hdepth'
  have hmem' : (load.name, Runner.loadJson) ∈ builtins := by
    simp [builtins, hload.name_eq]
  have hrun' := @Runner.loadJson_of_loads ((standard limit).site means load outer') _ _ _ _ _
    hload hholds.begin_leave (Json.dropMarks_text hplain) (Json.parse?_text hplain)
  exact ⟨_, boundary_of_done ((inside_of_mem hmem' hdepth' means _).trans hrun'),
    Dict.get?_insert_self _ _ _⟩

/-- A tag that dumps a variable into a file. -/
def saving : Tag := ⟨"json_dump", [("_to_file", some "x.json"), ("key", some "x")], [], .nowhere⟩

/-- A tag that loads another variable from that file. -/
def restoring : Tag :=
  ⟨"json_load", [("_from_file", some "x.json"), ("_to_key", some "y")], [], .nowhere⟩

/-- A value with much in it that has to be escaped or cannot be written. -/
def intricate : Value :=
  .map [("it", .iter [.null] 0), ("least", .int (-9223372036854775808)),
    ("texts", .array [.str "\"\\\n", .str "é"])]

/-- A frame with that value in a variable. -/
def unsaved : Frame :=
  ⟨[("x", intricate)], { World.ofFiles (.empty []) "" .bare with searchPath := ["."] }⟩

theorem plain_intricate : Json.Plain Json.maxLevels intricate := by
  refine .map (by decide) fun entry hentry => ?_
  simp only [List.mem_cons, List.not_mem_nil, or_false] at hentry
  obtain rfl | rfl | rfl := hentry
  · exact .scalar trivial
  · exact .scalar trivial
  · refine .array fun v hv => ?_
    simp only [List.mem_cons, List.not_mem_nil, or_false] at hv
    obtain rfl | rfl := hv
    · exact .scalar trivial
    · exact .scalar trivial

theorem saving_dumps : saving.Dumps (unsaved.begin saving 0) "x" (.file "x.json") where
  name_eq := rfl
  encoded := rfl
  key_eq := rfl
  named := rfl
  goal := @Depot.IsGoal.file _ _ "x.json" "." [] ["x.json"] rfl rfl rfl rfl rfl
    ⟨rfl, by decide⟩

theorem restoring_restores_saving :
    saving.Dumps (unsaved.begin saving 0) "x" (.file "x.json") ∧
    Reserved.isReserved "x" = false ∧ unsaved.lookup "x" = some intricate ∧
    Json.Plain Json.maxLevels intricate ∧
    ∃ u w, (standard none).execute 1 saving 0 unsaved = .done .ok u ∧
      restoring.Loads (u.begin restoring 0) (.file "x.json") "y" ∧
      (standard none).execute 1 restoring 0 u = .done .ok w ∧
      w.locals.get? "y" = some (.map [("it", .null), ("least", .int (-9223372036854775808)),
        ("texts", .array [.str "\"\\\n", .str "é"])]) := by
  obtain ⟨u, hu, hload⟩ :=
    load_restores_dump none 0 saving_dumps nofun (by decide) rfl plain_intricate
  have hloads : ∃ t, (standard none).execute 1 saving 0 unsaved = .done .ok t ∧
      restoring.Loads (t.begin restoring 0) (.file "x.json") "y" :=
    ⟨_, rfl, rfl, rfl, .file rfl rfl rfl rfl rfl, rfl, rfl, rfl⟩
  obtain ⟨t, ht, hloads⟩ := hloads
  obtain rfl : t = u := (Ending.done.inj (ht.symm.trans hu)).2
  obtain ⟨w, hw, hvalue⟩ := hload restoring 0 "y" hloads nofun
  exact ⟨saving_dumps, by decide, rfl, plain_intricate, t, w, hu, hloads, hw, hvalue⟩

end Engine

end TagScript
