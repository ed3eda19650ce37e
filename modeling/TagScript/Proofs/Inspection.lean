import TagScript.Proofs.Finiteness
import TagScript.Proofs.Verdict
import TagScript.Proofs.Walk

/-!
# A check tells of each defect

Two trees are gone through, one inside the other: the files of a directory
and, in each script among them, the tags. Neither order is that of a list to
begin with. The files come in the order of the walk (`Files.Walks`), the tags
in that of the document, which is the order of their addresses: the numbers
that lead to a tag from the outermost one.

What a check tells is described script by script (`CommandLine.TellsOf`), from
what the file of the script holds. A path that is too long is refused by the
system although the walk has found the file, so such a script cannot be read
whatever is in it. A line is what is written as one: it has a line end in it
if the name of a file has.
-/

namespace TagScript

/-! ## Tags by their addresses -/

namespace Tag

/-- **The tag at an address**: each number says into which of the tags inside to go. -/
def at? : Tag → List Nat → Option Tag
  | tag, [] => some tag
  | tag, i :: rest => tag.tags[i]?.bind fun child => child.at? rest

/-- **The tags of some kind in a tag**, with their addresses, in document order: a tag comes before
those inside it, and those inside one before those inside a later one. -/
structure Lists (tag : Tag) (kind : Tag → Prop) (found : List (List Nat × Tag)) : Prop where
  /-- They are all there, and nothing else. -/
  mem_iff : ∀ address t, (address, t) ∈ found ↔ tag.at? address = some t ∧ kind t
  /-- They come in document order, each once. -/
  ascending : found.Pairwise fun a b => a.1 < b.1

/-- The tags inside some tags, from the `n`-th on. -/
theorem exists_lists_of_tags {tags : List Tag}
    (h : ∀ child ∈ tags, ∃ found, child.Lists (fun _ => True) found ∧
      found.map Prod.snd = child.withAll) (n : Nat) :
    ∃ found : List (List Nat × Tag), found.map Prod.snd = tags.flatMap withAll ∧
      (∀ address t, (address, t) ∈ found ↔ ∃ i child rest, tags[i]? = some child ∧
        address = (n + i) :: rest ∧ child.at? rest = some t) ∧
      found.Pairwise fun a b => a.1 < b.1 := by
  induction tags generalizing n with
  | nil => exact ⟨[], rfl, by simp, List.Pairwise.nil⟩
  | cons first tags ih =>
    obtain ⟨inside, hinside, hall⟩ := h first List.mem_cons_self
    obtain ⟨later, hlater, hmem, hascending⟩ :=
      ih (fun child hchild => h child (List.mem_cons_of_mem first hchild)) (n + 1)
    refine ⟨inside.map (fun found => (n :: found.1, found.2)) ++ later, ?_, fun address t => ?_, ?_⟩
    · rw [List.map_append, List.map_map, hlater, List.flatMap_cons, ← hall]
      rfl
    · rw [List.mem_append, hmem]
      constructor
      · rintro (hfirst | ⟨i, child, rest, hchild, rfl, ht⟩)
        · obtain ⟨⟨rest, _⟩, hfound, heq⟩ := List.mem_map.1 hfirst
          obtain ⟨rfl, rfl⟩ := Prod.mk.inj heq
          exact ⟨0, first, rest, rfl, rfl, ((hinside.mem_iff rest _).1 hfound).1⟩
        · exact ⟨i + 1, child, rest, hchild, by rw [Nat.add_right_comm, Nat.add_assoc], ht⟩
      · rintro ⟨i, child, rest, hchild, rfl, ht⟩
        cases i with
        | zero =>
          obtain rfl := Option.some.inj hchild
          exact .inl (List.mem_map.2 ⟨_, (hinside.mem_iff rest t).2 ⟨ht, trivial⟩, rfl⟩)
        | succ i =>
          exact .inr ⟨i, child, rest, hchild, by rw [Nat.add_right_comm, Nat.add_assoc], ht⟩
    · refine List.pairwise_append.2 ⟨?_, hascending, fun a ha b hb => ?_⟩
      · exact List.pairwise_map.2 (hinside.ascending.imp fun hlt => List.cons_lt_cons_iff.2
          (.inr ⟨rfl, hlt⟩))
      · obtain ⟨_, -, rfl⟩ := List.mem_map.1 ha
        obtain ⟨i, _, rest, -, haddress, -⟩ := (hmem b.1 b.2).1 hb
        dsimp only
        rw [haddress]
        exact List.cons_lt_cons_iff.2 (.inl (by omega))

/-- **All tags in a tag come in document order.** -/
theorem exists_lists_withAll (tag : Tag) :
    ∃ found, tag.Lists (fun _ => True) found ∧ found.map Prod.snd = tag.withAll := by
  induction hlength : tag.withAll.length using Nat.strong_induction_on generalizing tag with
  | _ length ih =>
    have hchildren : ∀ child ∈ tag.tags, ∃ found, child.Lists (fun _ => True) found ∧
        found.map Prod.snd = child.withAll := fun child hchild =>
      ih _ (hlength ▸ length_withAll_lt_of_mem_tags hchild) child rfl
    obtain ⟨inside, hinside, hmem, hascending⟩ := exists_lists_of_tags hchildren 0
    refine ⟨([], tag) :: inside, ⟨fun address t => ?_, ?_⟩, ?_⟩
    · rw [List.mem_cons, hmem]
      cases address with
      | nil => simp [at?, eq_comm]
      | cons i rest => simp [at?, Option.bind_eq_some_iff]
    · refine List.pairwise_cons.2 ⟨fun found hfound => ?_, hascending⟩
      obtain ⟨i, _, rest, -, haddress, -⟩ := (hmem found.1 found.2).1 hfound
      rw [haddress]
      exact List.nil_lt_cons _ _
    · rw [List.map_cons, hinside, ← withAll_eq]

/-- So do those of some kind. -/
theorem exists_lists (tag : Tag) (kind : Tag → Bool) :
    ∃ found, tag.Lists (kind · = true) found ∧
      found.map Prod.snd = tag.withAll.filter kind := by
  obtain ⟨found, hfound, hall⟩ := tag.exists_lists_withAll
  refine ⟨found.filter (kind ·.2), ⟨fun address t => ?_, hfound.ascending.filter _⟩, ?_⟩
  · rw [List.mem_filter, hfound.mem_iff]
    simp
  · rw [← hall, List.filter_map]
    rfl

end Tag

/-! ## Scripts among files -/

namespace Path

/-- The extension of a name stands behind its last dot. -/
theorem splitExtension_of_dot {name : String} {stem extension : List Char}
    (hname : name.toList = stem ++ '.' :: extension) (hextension : '.' ∉ extension) :
    splitExtension name =
      if stem.isEmpty then (name, none)
      else (String.ofList stem, some (String.ofList extension)) := by
  have hpieces : Text.splitChars '.' name.toList = Text.splitChars '.' stem ++ [extension] := by
    rw [hname, Text.splitChars_append_cons, Text.splitChars_eq_splitOn '.' extension,
      List.splitOn_eq_singleton hextension]
  obtain ⟨piece, pieces, hstem⟩ := List.exists_cons_of_ne_nil
    (List.reverse_ne_nil_iff.2 (Text.splitChars_ne_nil '.' stem))
  have hreverse : (Text.splitChars '.' name.toList).reverse = extension :: piece :: pieces := by
    rw [hpieces, List.reverse_append, hstem]
    rfl
  unfold splitExtension
  rw [hreverse]
  dsimp only
  rw [← hstem, List.reverse_reverse, Text.intercalate_splitChars]

theorem splitExtension_of_no_dot {name : String} (h : '.' ∉ name.toList) :
    splitExtension name = (name, none) := by
  unfold splitExtension
  rw [Text.splitChars_eq_splitOn, List.splitOn_eq_singleton h]
  rfl

/-- **What a name with an extension looks like.** -/
theorem splitExtension_eq_some {name extension : String} (hextension : '.' ∉ extension.toList) :
    (splitExtension name).2 = some extension ↔
      ∃ stem, stem ≠ "" ∧ name = stem ++ "." ++ extension := by
  constructor
  · intro h
    by_cases hdot : '.' ∈ name.toList
    · -- the last dot is the first one from behind
      obtain ⟨back, front, hback, hnone⟩ := List.eq_append_cons_of_mem (List.mem_reverse.2 hdot)
      have hname : name.toList = front.reverse ++ '.' :: back.reverse := by
        rw [← List.reverse_reverse name.toList, hback]
        simp
      rw [splitExtension_of_dot hname (by simpa using hnone)] at h
      split at h
      · cases h
      · next hstem =>
        have hback : String.ofList back.reverse = extension := Option.some.inj h
        refine ⟨String.ofList front.reverse, by simpa using hstem, ?_⟩
        rw [← hback, ← String.toList_inj, hname]
        simp
    · rw [splitExtension_of_no_dot hdot] at h
      cases h
  · rintro ⟨stem, hstem, rfl⟩
    have hname : (stem ++ "." ++ extension).toList = stem.toList ++ '.' :: extension.toList := by
      simp
    rw [splitExtension_of_dot hname hextension, if_neg (by simpa using hstem)]
    exact congrArg some String.ofList_toList

/-- A name is a path that ends with it. -/
theorem fileName?_of_isFileName {name : String} (h : IsFileName name) :
    fileName? name = some name := by
  rw [fileName?_eq_some_iff, onward_of_notMem h.no_slash h.ne_empty h.ne_dot]
  exact ⟨rfl, h.ne_up⟩

end Path

namespace Files

/-- **The scripts below a directory**: the files there whose names end with the extension of
scripts. -/
structure HoldsScripts (fs : Files) (place : Location) (scripts : List (List String × Content)) :
    Prop where
  /-- They are all there, and nothing else. -/
  mem_iff : ∀ names content, (names, content) ∈ scripts ↔
    fs.entry? (place ++ names) = some (.file content) ∧
      ∃ stem, stem ≠ "" ∧ names.getLast? = some (stem ++ ".xml")
  /-- Each is there once. -/
  once : (scripts.map Prod.fst).Nodup
  /-- They come in the order of the walk. -/
  order : ∃ visited, fs.Walks [place] visited ∧
    (scripts.map fun script => (place ++ script.1, Entry.file script.2)).Sublist visited

variable {fs : Files} {place : Location}

/-- What is a script goes by the last name. -/
theorem isScript_iff {names : List String} (h : ∀ name ∈ names, IsFileName name) :
    Engine.isScript names = true ↔ ∃ stem, stem ≠ "" ∧ names.getLast? = some (stem ++ ".xml") := by
  unfold Engine.isScript
  rw [beq_iff_eq]
  cases hlast : names.getLast? with
  | none => simp
  | some name =>
    have hname := h name (List.mem_of_getLast? hlast)
    have hextension : Path.extension? name = some scriptExtension ↔
        ∃ stem, stem ≠ "" ∧ name = stem ++ "." ++ scriptExtension := by
      unfold Path.extension?
      rw [Path.fileName?_of_isFileName hname]
      exact Path.splitExtension_eq_some (by decide)
    rw [Option.bind_some, hextension]
    simp only [Option.some.injEq, String.append_assoc]
    rfl

/-- **The scripts that a check takes** are those below the directory. -/
theorem IsTree.holdsScripts (h : fs.IsTree) (hdirectory : fs.entry? place = some .directory) :
    fs.HoldsScripts place ((fs.below place).filter fun file => Engine.isScript file.1) where
  mem_iff names content := by
    rw [List.mem_filter, h.mem_below]
    refine and_congr_right fun hfile => isScript_iff ?_
    exact h.isFileName_of_isSome (by rw [hfile]; rfl)
  once := (h.nodup_below place).sublist (List.filter_sublist.map _)
  order := by
    have hwalks : fs.Walks [place] (fs.within place) := by
      refine (h.walks_iff ?_).2 (by simp)
      intro other hother
      rw [List.mem_singleton.1 hother, hdirectory]
      rfl
    exact ⟨_, hwalks, (List.filter_sublist.map _).trans (h.sublist_below place)⟩

end Files

/-! ## What a check tells of a script -/

/-- **A file spells a script**: it holds the text of one, byte order marks aside. -/
def Content.Spells (content : Content) (script : Tag) : Prop :=
  ∃ source, content = .text source ∧ Markup.parse? (Text.dropMarks source) = some script

namespace CommandLine

/-- Whether a line begins with a label. -/
def begins (label line : String) : Bool := label.toList.isPrefixOf line.toList

/-- The path of a script, as it is told. -/
def shownPath (names : List String) : String :=
  Text.replaceChar (Text.joinWith "/" names) '\\' "/"

/-- The path along which the script is read. -/
def readPath (directory : String) (names : List String) : String :=
  Path.join directory (Text.joinWith "/" names)

/-- The line that tells of a tag that cannot be run. -/
def unknownLine (names : List String) (t : Tag) : String :=
  "UNKNOWN_TAG:" ++ shownPath names ++ ":" ++ String.ofList (Decimal.numeral t.span.start.line) ++
    ":" ++ t.name

/-- **What a check tells of a script**, going by what its file holds. -/
inductive TellsOf (files : Files) (directory : String) (names : List String) (content : Content) :
    List String → Prop where
  /-- The file is read and spells a script: there is a line for each tag that cannot be run, in
  document order. -/
  | parsed {script : Tag} {unknown : List (List Nat × Tag)}
      (short : (readPath directory names).utf8ByteSize ≤ Files.maxPathSize)
      (spells : content.Spells script)
      (lists : script.Lists (fun t => (Engine.standard none).knows t.name = false) unknown) :
      TellsOf files directory names content
        (("SCRIPT:" ++ shownPath names) :: unknown.map fun found => unknownLine names found.2)
  /-- The file is not read or spells none: there is a line for the cause. -/
  | unparsed {cause : Cause} {line : String}
      (unread : ¬((readPath directory names).utf8ByteSize ≤ Files.maxPathSize ∧
        ∃ script, content.Spells script))
      (refused : Script.ofFile files (readPath directory names) = .error cause)
      (told : Tells ("INVALID_SCRIPT:" ++ shownPath names ++ ":" ++ cause.code ++ ":") cause.message
        line) :
      TellsOf files directory names content ["SCRIPT:" ++ shownPath names, line]

variable {files : Files} {directory : String} {names : List String} {content : Content}
  {place : Location}

/-- A label that is not longer than the front of a line is looked for there. -/
theorem begins_append {label front : String} (h : label.toList.length ≤ front.toList.length)
    (rest : String) : begins label (front ++ rest) = begins label front := by
  unfold begins
  rw [Bool.eq_iff_iff, List.isPrefixOf_iff_prefix, List.isPrefixOf_iff_prefix, String.toList_append]
  exact ⟨fun hbegins => List.prefix_of_prefix_length_le hbegins (List.prefix_append _ _) h,
    fun hbegins => hbegins.trans (List.prefix_append _ _)⟩

/-- **A line tells of a defect.** -/
def IsDefect (line : String) : Prop :=
  begins "INVALID_SCRIPT:" line = true ∨ begins "UNKNOWN_TAG:" line = true

/-- What the first line about a script begins with, -/
theorem begins_scriptLine (path : String) : begins "SCRIPT:" ("SCRIPT:" ++ path) = true ∧
    ¬IsDefect ("SCRIPT:" ++ path) := by
  unfold IsDefect begins
  simp [String.toList_append]

/-- Whatever else is told of a script is a defect. -/
theorem begins_defectLine {label : String} (h : label = "INVALID_SCRIPT:" ∨ label = "UNKNOWN_TAG:")
    (rest : String) : begins "SCRIPT:" (label ++ rest) = false ∧ IsDefect (label ++ rest) := by
  obtain rfl | rfl := h
  · exact ⟨begins_append (by decide) rest, .inl (begins_append (by decide) rest)⟩
  · exact ⟨begins_append (by decide) rest, .inr (begins_append (by decide) rest)⟩

/-- **The lines about a script**: the one with its path, and one for each defect. -/
theorem exists_reportLines (r : ScriptReport) : ∃ defects,
    reportLines r = ("SCRIPT:" ++ r.path) :: defects ∧
    (∀ line ∈ defects, begins "SCRIPT:" line = false ∧ IsDefect line) ∧
    (r.isClean = true ↔ defects = []) := by
  refine ⟨_, rfl, fun line hline => ?_, ?_⟩
  · obtain hcause | hunknown := List.mem_append.1 hline
    · obtain ⟨cause, -, rfl⟩ := Option.map_eq_some_iff.1 (Option.mem_toList.1 hcause)
      simp only [String.append_assoc]
      exact begins_defectLine (.inl rfl) _
    · obtain ⟨⟨line, name⟩, -, rfl⟩ := List.mem_map.1 hunknown
      simp only [String.append_assoc]
      exact begins_defectLine (.inr rfl) _
  · simp [ScriptReport.isClean]

/-- The lines in the end are neither. -/
theorem begins_closingLine {line : String} {n : Nat} {clean : Bool}
    (h : line ∈ ["SCRIPTS:" ++ String.ofList (Decimal.numeral n),
      if clean then "RESULT:OK" else "RESULT:FAILED"]) :
    begins "SCRIPT:" line = false ∧ ¬IsDefect line := by
  obtain rfl | hresult := List.mem_cons.1 h
  · refine ⟨begins_append (by decide) _, ?_⟩
    unfold IsDefect begins
    simp [String.toList_append]
  · rw [List.mem_singleton.1 hresult]
    unfold IsDefect
    cases clean <;> decide

/-- **As many lines as there are reports begin with the path of a script.** -/
theorem countP_checkLines (reports : List ScriptReport) :
    (checkLines reports).countP (begins "SCRIPT:") = reports.length := by
  have hclosing : ∀ n clean, List.countP (begins "SCRIPT:")
      ["SCRIPTS:" ++ String.ofList (Decimal.numeral n),
        if clean = true then "RESULT:OK" else "RESULT:FAILED"] = 0 := fun n clean =>
    List.countP_eq_zero.2 fun line hline => by simp [(begins_closingLine hline).1]
  unfold checkLines
  rw [List.countP_append, hclosing, Nat.add_zero]
  induction reports with
  | nil => rfl
  | cons r reports ih =>
    obtain ⟨defects, hlines, hdefects, -⟩ := exists_reportLines r
    have hnone : defects.countP (begins "SCRIPT:") = 0 :=
      List.countP_eq_zero.2 fun line hline => by simp [(hdefects line hline).1]
    rw [List.flatMap_cons, List.countP_append, ih, hlines,
      List.countP_cons_of_pos (begins_scriptLine r.path).1, hnone, List.length_cons, Nat.add_comm]

/-- **Nothing is wrong with any script** exactly if no line tells of a defect. -/
theorem all_isClean_iff (reports : List ScriptReport) :
    reports.all ScriptReport.isClean = true ↔ ∀ line ∈ checkLines reports, ¬IsDefect line := by
  have hreport : ∀ r, ScriptReport.isClean r = true ↔ ∀ line ∈ reportLines r, ¬IsDefect line := by
    intro r
    obtain ⟨defects, hlines, hdefects, hclean⟩ := exists_reportLines r
    rw [hclean, hlines, List.forall_mem_cons, and_iff_right (begins_scriptLine r.path).2]
    exact ⟨fun hnone => by simp [hnone], fun hsound => List.eq_nil_iff_forall_not_mem.2
      fun line hline => hsound line hline (hdefects line hline).2⟩
  rw [List.all_eq_true, checkLines]
  constructor
  · intro hall line hline
    obtain hline | hline := List.mem_append.1 hline
    · obtain ⟨r, hr, hline⟩ := List.mem_flatMap.1 hline
      exact (hreport r).1 (hall r hr) line hline
    · exact (begins_closingLine hline).2
  · intro hall r hr
    exact (hreport r).2 fun line hline =>
      hall line (List.mem_append_left _ (List.mem_flatMap.2 ⟨r, hr, hline⟩))

/-- **A file is read as a script if it spells one**, and its path is not too long. -/
theorem ofFile_eq_ok (h : files.IsTree) (hplace : files.locate directory = .ok place)
    (hdirectory : files.entry? place = some .directory)
    (hfile : files.entry? (place ++ names) = some (.file content)) {script : Tag} :
    Script.ofFile files (readPath directory names) = .ok script ↔
      (readPath directory names).utf8ByteSize ≤ Files.maxPathSize ∧ content.Spells script := by
  have hread : files.read (readPath directory names) = _ := h.read_join hplace hdirectory hfile
  unfold Script.ofFile
  rw [hread]
  by_cases hlong : Files.maxPathSize < (readPath directory names).utf8ByteSize
  · rw [if_pos (show Files.maxPathSize < (Path.join _ _).utf8ByteSize from hlong)]
    simp [Nat.not_le.2 hlong]
  · rw [if_neg (show ¬Files.maxPathSize < (Path.join _ _).utf8ByteSize from hlong)]
    cases content with
    | text source =>
      simp only [Script.ofSource, Content.Spells, Nat.le_of_not_lt hlong, true_and]
      cases hparse : Markup.parse? (Text.dropMarks source) <;> simp [hparse]
    | binary bytes =>
      dsimp only
      cases Text.Utf8.defect? bytes <;> simp [Content.Spells]

theorem checkScript_eq (e : Engine) (files : Files) (directory : String) (names : List String) :
    e.checkScript files directory names =
      match Script.ofFile files (readPath directory names) with
      | .ok script => ⟨shownPath names, none, e.unknownTags script⟩
      | .error cause => ⟨shownPath names, some cause, []⟩ := by
  unfold Engine.checkScript readPath shownPath
  rfl

/-- **The report on a script tells what there is to tell of its file.** -/
theorem tellsOf_report (h : files.IsTree) (hplace : files.locate directory = .ok place)
    (hdirectory : files.entry? place = some .directory)
    (hfile : files.entry? (place ++ names) = some (.file content)) :
    TellsOf files directory names content
      (reportLines ((Engine.standard none).checkScript files directory names)) := by
  have hok := fun script => @ofFile_eq_ok files directory names content place h hplace hdirectory
    hfile script
  rw [checkScript_eq]
  cases hscript : Script.ofFile files (readPath directory names) with
  | ok script =>
    obtain ⟨short, spells⟩ := (hok script).1 hscript
    obtain ⟨unknown, hlists, hall⟩ :=
      script.exists_lists fun t => !(Engine.standard none).knows t.name
    simp only [Bool.not_eq_true'] at hlists
    have hlines : reportLines ⟨shownPath names, none, (Engine.standard none).unknownTags script⟩ =
        ("SCRIPT:" ++ shownPath names) :: unknown.map fun found => unknownLine names found.2 := by
      unfold reportLines Engine.unknownTags
      rw [← hall, List.map_map, List.map_map]
      rfl
    dsimp only
    rw [hlines]
    exact .parsed short spells hlists
  | error cause =>
    refine .unparsed (fun ⟨short, script, spells⟩ => ?_) hscript (tells_quoted _ _)
    cases hscript.symm.trans ((hok script).2 ⟨short, spells⟩)

/-- **A check tells of each defect**, and of nothing else. Take any command line that asks for a
check, any files that are a tree, and let the path that it gives lead to a directory.

Then there is an answer, which leaves the files as they are. Its lines are those about one script
after the other, in the order of the walk, and two more: how many scripts there are, which is how
many lines begin with the path of one, and the verdict. The status is zero, and the verdict good, if
no line tells of a defect; otherwise the status is one, and the verdict bad. -/
theorem answer_tells_defects {words : List String} {directory : String} {files : Files}
    {place : Location} (hwords : Request.ofWords? words = some (.check directory))
    (htree : files.IsTree) (hplace : files.locate directory = .ok place)
    (hdirectory : files.entry? place = some .directory) (means : Nat) (system : System)
    (clock : String) :
    ∃ answer scripts told,
      CommandLine.answer means system files clock words = some answer ∧
      files.HoldsScripts place scripts ∧
      List.Forall₂ (fun script lines => TellsOf files directory script.1 script.2 lines) scripts
        told ∧
      answer.lines = told.flatten ++
        ["SCRIPTS:" ++ String.ofList (Decimal.numeral scripts.length),
          if answer.status = 0 then "RESULT:OK" else "RESULT:FAILED"] ∧
      answer.lines.countP (begins "SCRIPT:") = scripts.length ∧
      (answer.status = 0 ∧ (∀ line ∈ answer.lines, ¬IsDefect line) ∨
        answer.status = 1 ∧ ∃ line ∈ answer.lines, IsDefect line) ∧
      answer.files = files := by
  obtain ⟨scripts, hscripts⟩ :
    ∃ scripts, scripts = (files.below place).filter fun file => Engine.isScript file.1 := ⟨_, rfl⟩
  have hholds : files.HoldsScripts place scripts := hscripts ▸ htree.holdsScripts hdirectory
  have hcheck : (Engine.standard none).check files directory = .ok (scripts.map fun script =>
      (Engine.standard none).checkScript files directory script.1) := by
    unfold Engine.check
    rw [hplace]
    dsimp only
    rw [if_pos hdirectory, hscripts]
  generalize hreports : (scripts.map fun script =>
    (Engine.standard none).checkScript files directory script.1) = reports at hcheck
  refine ⟨⟨if reports.all ScriptReport.isClean then 0 else 1, checkLines reports, files⟩, scripts,
    reports.map reportLines, ?_, hholds, ?_, ?_, ?_, ?_, rfl⟩
  · rw [answer, hwords]
    dsimp only
    rw [check, hcheck]
  · rw [← hreports, List.map_map, List.forall₂_map_right_iff, List.forall₂_same]
    rintro ⟨names, content⟩ hscript
    exact tellsOf_report htree hplace hdirectory ((hholds.mem_iff names content).1 hscript).1
  · have hlength : reports.length = scripts.length := by rw [← hreports, List.length_map]
    dsimp only
    rw [checkLines, hlength, List.flatMap_def]
    cases reports.all ScriptReport.isClean <;> rfl
  · rw [countP_checkLines, ← hreports, List.length_map]
  · dsimp only
    by_cases hclean : reports.all ScriptReport.isClean = true
    · exact .inl ⟨if_pos hclean, (all_isClean_iff reports).1 hclean⟩
    · refine .inr ⟨if_neg hclean, ?_⟩
      simpa only [all_isClean_iff, not_forall, not_not, exists_prop] using hclean

/-- A directory in which two scripts lie, and others in a directory inside it. In one script there
are tags that cannot be run, inside each other, and another spells no tag. -/
def littered : Files :=
  ⟨["w"], [(["w"], .directory), (["w", "s"], .directory),
    (["w", "s", "a.xml"], .file (.text
      "<root>\n  <mystery>text<sub>\n<oops/></sub></mystery>\n<mystery/></root>")),
    (["w", "s", "b"], .directory), (["w", "s", "b", "c.xml"], .file (.text "<root><oops></root>")),
    (["w", "s", "b", "d.xml"], .file (.text "<root/>")),
    (["w", "s", "notes.txt"], .file (.text "<mystery/>")),
    (["w", "s", "z.xml"], .file (.binary [0xFF]))], []⟩

/-- A command line that asks for a check of it. -/
def checking : List String := ["check", "--scripts-dir=s"]

/-- The check goes on from the tags that cannot be run in the first script to the other scripts. -/
theorem littered_tells_defects :
    Request.ofWords? checking = some (.check "s") ∧ littered.IsTree ∧
    littered.locate "s" = .ok ["w", "s"] ∧ littered.entry? ["w", "s"] = some .directory ∧
    ∃ answer scripts told,
      CommandLine.answer 0 .bare littered "now" checking = some answer ∧
      answer.lines.take 5 = ["SCRIPT:a.xml", "UNKNOWN_TAG:a.xml:2:mystery",
        "UNKNOWN_TAG:a.xml:3:oops", "UNKNOWN_TAG:a.xml:4:mystery", "SCRIPT:b/c.xml"] ∧
      littered.HoldsScripts ["w", "s"] scripts ∧
      List.Forall₂ (fun script lines => TellsOf littered "s" script.1 script.2 lines) scripts
        told ∧
      answer.lines.countP (begins "SCRIPT:") = scripts.length ∧ answer.status = 1 := by
  have hwords : Request.ofWords? checking = some (.check "s") := by decide +kernel
  have htree : littered.IsTree :=
    ⟨by decide +kernel, by decide +kernel, by decide +kernel, by decide +kernel⟩
  have hplace : littered.locate "s" = .ok ["w", "s"] := by decide +kernel
  have hdirectory : littered.entry? ["w", "s"] = some .directory := by decide +kernel
  have hfirst : (CommandLine.answer 0 .bare littered "now" checking).map (·.lines.take 5) =
      some ["SCRIPT:a.xml", "UNKNOWN_TAG:a.xml:2:mystery", "UNKNOWN_TAG:a.xml:3:oops",
        "UNKNOWN_TAG:a.xml:4:mystery", "SCRIPT:b/c.xml"] := by decide +kernel
  obtain ⟨answer, scripts, told, hanswer, hscripts, htold, -, hcount, hends, -⟩ :=
    answer_tells_defects hwords htree hplace hdirectory 0 .bare "now"
  rw [hanswer, Option.map_some, Option.some.injEq] at hfirst
  have hdefect : "UNKNOWN_TAG:a.xml:2:mystery" ∈ answer.lines.take 5 := by
    rw [hfirst]
    decide
  refine ⟨hwords, htree, hplace, hdirectory, answer, scripts, told, hanswer, hfirst, hscripts,
    htold, hcount, (hends.resolve_left fun hclean => ?_).1⟩
  exact hclean.2 _ (List.mem_of_mem_take hdefect) (.inr (by decide))

end CommandLine

end TagScript
