import TagScript.Proofs.Storage
import TagScript.Proofs.Substitution

/-!
# Reading a variable by a tag

A key is an attribute like any other and may be put together from variables. Most are
not: `IsPlainKey` tells the keys that stand for themselves wherever they are read.

A tag that reads a variable yields its value if the variable is bound to one, whatever
it is, and null if not – as a look does. Its boundary binds the depth and the time
besides, but no other variable.
-/

namespace TagScript

/-- **A key that an attribute names as it is written**: it is not empty, no blanks
are around it and no markers are in it. -/
structure IsPlainKey (key : String) : Prop where
  nonempty : key.isEmpty = false
  trimmed : Text.trim key = key
  markerFree : Scope.MarkerFree key.toList

theorem isPlainKey_of_notMem {key : String} (h : '$' ∉ key.toList) (hnonempty : key.isEmpty = false)
    (htrimmed : Text.trim key = key) : IsPlainKey key :=
  ⟨hnonempty, htrimmed, Scope.markerFree_of_notMem h⟩

theorem IsPlainKey.attrKey {key : String} (h : IsPlainKey key) {tag : Tag} {name : String}
    (hattr : tag.attr name = some key) (s : Frame) : s.attrKey tag name = key := by
  unfold Frame.attrKey Frame.attrText
  rw [hattr]
  show Text.trim (Scope.substitute _ _ key) = key
  rw [Scope.substitute_of_pieces (Scope.pieces_of_markerFree h.markerFree), h.trimmed]

theorem IsPlainKey.requireKey {key : String} (h : IsPlainKey key) {tag : Tag} {name : String}
    (hattr : tag.attr name = some key) (s : Frame) :
    Run.requireKey tag name s = .done key s :=
  Run.requireKey_of_attrKey (h.attrKey hattr s) h.nonempty

/-- **A tag that reads a variable** and no more than that: no default, no entry of
a map and no index. -/
structure Tag.Reads (tag : Tag) (key : String) : Prop where
  name : tag.name = "get"
  key : tag.attr "key" = some key
  default : tag.attr "defvalue" = none
  member : tag.attr "dict_key" = none
  index : tag.attr "index" = none

/-- Its runner looks at the variable. -/
theorem Runner.reading_of_reads {site : Site} {key : String} (h : site.tag.Reads key)
    (hkey : IsPlainKey key) (s : Frame) : reading site s = .done (.value (s.read key)) s := by
  have hasked : Run.attrKey site.tag "key" s = .done key s :=
    congrArg (Ending.done · s) (hkey.attrKey h.key s)
  have habsent {name : String} (h : site.tag.attr name = none) :
      Run.attrText site.tag name s = .done none s := by
    show Ending.done ((site.tag.attr name).map s.substitute) s = _
    rw [h]
    rfl
  have hlook : Run.look (·.lookup key) s = .done (s.lookup key) s := rfl
  unfold reading
  rw [Run.bind_of_done hasked, Run.bind_of_done (habsent h.default)]
  dsimp only
  rw [if_neg (by simp [hkey.nonempty]), Run.bind_of_done hlook, Run.bind_of_done (habsent h.member)]
  exact Run.bind_of_done (habsent h.index) _

/-- **A tag that reads a variable yields it**, and leaves all variables as they
are, apart from the depth and the time. -/
theorem Engine.run_reads {reader : Tag} {key : String} (h : reader.Reads key)
    (hkey : IsPlainKey key) (hdepth : key ≠ Reserved.depth) (htime : key ≠ Reserved.logDatetime)
    (means : Nat) (tag : Tag) (outer : Depth) (s : Frame) :
    ∃ t, ((standard none).site (means + 1) tag outer).run reader s =
        .done (.value (s.read key)) t ∧
      ∀ other, other ≠ Reserved.depth → other ≠ Reserved.logDatetime →
        t.read other = s.read other := by
  have hmem : (reader.name, Runner.reading) ∈ builtins := by simp [builtins, h.name]
  have hinside : (standard none).inside means reader (outer + 1) s =
      .done (.value ((s.begin reader (outer + 1)).read key)) (s.begin reader (outer + 1)) :=
    (inside_of_mem hmem (fun _ h => by cases h) means s).trans (Runner.reading_of_reads h hkey _)
  rw [Frame.read_begin_of_ne hdepth htime] at hinside
  refine ⟨(s.begin reader (outer + 1)).leave reader (outer + 1 + 1) (.value (s.read key)),
    boundary_of_done hinside, fun other hdepth htime => ?_⟩
  rw [Frame.read_leave, Frame.read_begin_of_ne hdepth htime]

/-- A tag that reads a variable. -/
def Engine.naming (key : String) : Tag := ⟨"get", [("key", some key)], [], .nowhere⟩

theorem Engine.reads_naming (key : String) : (naming key).Reads key := ⟨rfl, rfl, rfl, rfl, rfl⟩

end TagScript
