import TagScript.Scope.Lookup

/-!
# Where the markers of a text are

Substitution reads a text from left to right and never looks back, so what
it does to a text depends on where it finds the first marker. Here it is
said without any reading which marker that is: of all places where a marker
stands the leftmost one, and of all markers that stand there the shortest.
What is in front of it is a gap, and what is behind it is divided in the
same way.

A text can be divided in one way only (`Divides.unique`), the pieces that
substitution works on are that division (`exists_divides`), and so the text
that it makes is the gaps as they are, with the values of the variables
between them.
-/

namespace TagScript.Scope

/-- **The names that markers have**: at least one character and no line
feed. -/
def IsName (name : List Char) : Prop := name ≠ [] ∧ '\n' ∉ name

/-- Some characters begin with the marker of a name. -/
def MarkerAt (cs name : List Char) : Prop := IsName name ∧ marker name <+: cs

/-- No marker stands anywhere in some characters. -/
def MarkerFree (cs : List Char) : Prop := ∀ after, after <:+ cs → ∀ name, ¬MarkerAt after name

/-- **The first marker of some characters**: the gap in front of it, the
name in it and the rest after it. -/
structure FirstMarker (cs gap name rest : List Char) : Prop where
  eq : cs = gap ++ (marker name ++ rest)
  isName : IsName name
  /-- No marker stands at a place further left. -/
  leftmost : ∀ before after, cs = before ++ after → before.length < gap.length →
    ∀ other, ¬MarkerAt after other
  /-- No marker that stands at its place is shorter. -/
  shortest : ∀ other, MarkerAt (marker name ++ rest) other → name.length ≤ other.length

/-- **The division of some characters by their markers**: gaps with the
names in the markers after them, and what is left after the last marker. -/
inductive Divides : List Char → List (List Char × List Char) → List Char → Prop where
  /-- There is no marker. -/
  | last {cs : List Char} (h : MarkerFree cs) : Divides cs [] cs
  /-- There is a first marker, and the rest after it is divided further. -/
  | marker {cs gap name rest last : List Char} {parts : List (List Char × List Char)}
      (h : FirstMarker cs gap name rest) (hrest : Divides rest parts last) :
      Divides cs ((gap, name) :: parts) last

/-! ## There is one division -/

theorem FirstMarker.markerAt {cs gap name rest : List Char} (h : FirstMarker cs gap name rest) :
    MarkerAt (marker name ++ rest) name :=
  ⟨h.isName, List.prefix_append _ _⟩

theorem FirstMarker.length_le {cs gap name rest gap' name' rest' : List Char}
    (h : FirstMarker cs gap name rest) (h' : FirstMarker cs gap' name' rest') :
    gap.length ≤ gap'.length :=
  Nat.le_of_not_lt fun hlt => h.leftmost _ _ h'.eq hlt _ h'.markerAt

/-- **There is no other first marker.** -/
theorem FirstMarker.unique {cs gap name rest gap' name' rest' : List Char}
    (h : FirstMarker cs gap name rest) (h' : FirstMarker cs gap' name' rest') :
    gap' = gap ∧ name' = name ∧ rest' = rest := by
  have hlength : gap'.length = gap.length := Nat.le_antisymm (h'.length_le h) (h.length_le h')
  obtain ⟨rfl, htail⟩ := List.append_inj (h'.eq.symm.trans h.eq) hlength
  have hname : name'.length = name.length := by
    refine Nat.le_antisymm (h'.shortest _ ?_) (h.shortest _ ?_)
    · rw [htail]
      exact h.markerAt
    · rw [← htail]
      exact h'.markerAt
  obtain ⟨hmarker, rfl⟩ := List.append_inj htail (by simp [marker, hname])
  simp only [marker, List.cons_append, List.cons.injEq, true_and] at hmarker
  exact ⟨rfl, (List.append_inj hmarker hname).1, rfl⟩

/-- **A text is divided in one way only.** -/
theorem Divides.unique {cs last last' : List Char} {parts parts' : List (List Char × List Char)}
    (h : Divides cs parts last) (h' : Divides cs parts' last') :
    parts' = parts ∧ last' = last := by
  induction h generalizing parts' with
  | last hfree =>
    cases h' with
    | last _ => exact ⟨rfl, rfl⟩
    | marker hfirst _ =>
      refine absurd hfirst.markerAt (hfree _ ?_ _)
      rw [hfirst.eq]
      exact List.suffix_append _ _
  | marker hfirst _ ih =>
    cases h' with
    | last hfree =>
      refine absurd hfirst.markerAt (hfree _ ?_ _)
      rw [hfirst.eq]
      exact List.suffix_append _ _
    | marker hfirst' hrest' =>
      obtain ⟨rfl, rfl, rfl⟩ := hfirst.unique hfirst'
      obtain ⟨rfl, rfl⟩ := ih hrest'
      exact ⟨rfl, rfl⟩

/-- A division loses nothing. -/
theorem Divides.eq {cs last : List Char} {parts : List (List Char × List Char)}
    (h : Divides cs parts last) :
    cs = (parts.flatMap fun part => part.1 ++ Scope.marker part.2) ++ last := by
  induction h with
  | last _ => rfl
  | marker hfirst _ ih => rw [hfirst.eq, ih]; simp

/-! ## Substitution finds it -/

/-- The reader of a marker takes no line feed. -/
theorem newline_notMem_of_closing {cs name rest : List Char} (h : closing cs = some (name, rest)) :
    '\n' ∉ name := by
  fun_induction closing cs generalizing name rest with
  | case1 rest' =>
    obtain ⟨rfl, _⟩ := Prod.mk.inj (Option.some.inj h)
    exact List.not_mem_nil
  | case2 _ => cases h
  | case3 c rest' _ hc ih =>
    obtain ⟨⟨name', rest''⟩, hr, heq⟩ := Option.map_eq_some_iff.1 h
    obtain ⟨rfl, _⟩ := Prod.mk.inj heq
    exact List.not_mem_cons_of_ne_of_not_mem (Ne.symm hc) (ih hr)
  | case4 => cases h

/-- **The reader of a marker stops at the first end.** -/
theorem exists_closing {other : List Char} (h : '\n' ∉ other) (tail : List Char) :
    ∃ name rest, closing (other ++ '%' :: '$' :: tail) = some (name, rest) ∧
      name.length ≤ other.length := by
  induction other with
  | nil => exact ⟨[], tail, rfl, Nat.le_refl 0⟩
  | cons c other ih =>
    obtain ⟨hc, hother⟩ := List.ne_and_not_mem_of_not_mem_cons h
    obtain ⟨name, rest, hclosing, hle⟩ := ih hother
    rw [List.cons_append]
    unfold closing
    split
    · next heq =>
      -- the name itself may hold an end, and then the marker stops there
      exact ⟨[], _, rfl, Nat.zero_le _⟩
    · next c' rest' _ heq =>
      obtain ⟨rfl, rfl⟩ := List.cons.inj heq
      rw [if_neg (Ne.symm hc), hclosing]
      exact ⟨c :: name, rest, rfl, Nat.succ_le_succ hle⟩
    · next heq => cases heq

theorem isName_of_marker? {cs name rest : List Char} (h : marker? cs = some (name, rest)) :
    IsName name := by
  unfold marker? at h
  split at h
  · next c rest' =>
    split at h
    · cases h
    · next hc =>
      obtain ⟨⟨name', rest''⟩, hr, heq⟩ := Option.map_eq_some_iff.1 h
      obtain ⟨rfl, _⟩ := Prod.mk.inj heq
      exact ⟨List.cons_ne_nil _ _,
        List.not_mem_cons_of_ne_of_not_mem (Ne.symm hc) (newline_notMem_of_closing hr)⟩
  · cases h

/-- **Where a marker stands one is read**, and none that is longer. -/
theorem exists_marker? {cs other : List Char} (h : MarkerAt cs other) :
    ∃ name rest, marker? cs = some (name, rest) ∧ name.length ≤ other.length := by
  obtain ⟨⟨hne, hline⟩, tail, rfl⟩ := h
  obtain ⟨c, other, rfl⟩ := List.exists_cons_of_ne_nil hne
  obtain ⟨hc, hother⟩ := List.ne_and_not_mem_of_not_mem_cons hline
  obtain ⟨name, rest, hclosing, hle⟩ := exists_closing hother tail
  refine ⟨c :: name, rest, ?_, Nat.succ_le_succ hle⟩
  simp [marker, marker?, Ne.symm hc, hclosing]

/-- What is read at the front is the first marker. -/
theorem firstMarker_of_marker? {cs name rest : List Char} (h : marker? cs = some (name, rest)) :
    FirstMarker cs [] name rest where
  eq := marker?_eq_some h
  isName := isName_of_marker? h
  leftmost _ _ _ hlt := absurd hlt (Nat.not_lt_zero _)
  shortest other hother := by
    rw [← marker?_eq_some h] at hother
    obtain ⟨name', rest', h', hle⟩ := exists_marker? hother
    obtain ⟨rfl, _⟩ := Prod.mk.inj (Option.some.inj (h.symm.trans h'))
    exact hle

theorem not_markerAt_of_marker? {cs : List Char} (h : marker? cs = none) (name : List Char) :
    ¬MarkerAt cs name := by
  intro hname
  obtain ⟨name', rest, h', _⟩ := exists_marker? hname
  rw [h] at h'
  cases h'

/-- A character at which no marker stands belongs to the gap after it. -/
theorem FirstMarker.cons {c : Char} {cs gap name rest : List Char}
    (h : FirstMarker cs gap name rest) (hc : ∀ other, ¬MarkerAt (c :: cs) other) :
    FirstMarker (c :: cs) (c :: gap) name rest where
  eq := congrArg (c :: ·) h.eq
  isName := h.isName
  leftmost before after heq hlt := by
    cases before with
    | nil =>
      rw [List.nil_append] at heq
      exact heq ▸ hc
    | cons b before =>
      obtain ⟨_, heq⟩ := List.cons.inj heq
      exact h.leftmost before after heq (Nat.lt_of_succ_lt_succ hlt)
  shortest := h.shortest

theorem MarkerFree.cons {c : Char} {cs : List Char} (h : MarkerFree cs)
    (hc : ∀ other, ¬MarkerAt (c :: cs) other) : MarkerFree (c :: cs) := by
  intro after hafter
  obtain rfl | hafter := List.suffix_cons_iff.1 hafter
  · exact hc
  · exact h after hafter

theorem markerFree_nil : MarkerFree [] := by
  intro after hafter name h
  obtain rfl := List.suffix_nil.1 hafter
  exact absurd (List.prefix_nil.1 h.2) (List.cons_ne_nil _ _)

/-- The pieces of the gaps and markers of a division. -/
def piecesOf (parts : List (List Char × List Char)) (last : List Char) : List Piece :=
  (parts.flatMap fun part => part.1.map Piece.char ++ [Piece.marker part.2]) ++ last.map .char

/-- **Every text is divided as its pieces are.** -/
theorem exists_divides (cs : List Char) :
    ∃ parts last, Divides cs parts last ∧ pieces cs = piecesOf parts last := by
  induction hn : cs.length using Nat.strongRecOn generalizing cs with
  | _ n ih =>
    cases cs with
    | nil => exact ⟨[], [], .last markerFree_nil, rfl⟩
    | cons c rest =>
      subst hn
      rw [pieces_cons]
      cases hmarker : marker? (c :: rest) with
      | some found =>
        obtain ⟨name, rest'⟩ := found
        obtain ⟨parts, last, hdivides, hpieces⟩ :=
          ih _ (length_lt_of_marker?_eq_some hmarker) rest' rfl
        refine ⟨([], name) :: parts, last, .marker (firstMarker_of_marker? hmarker) hdivides, ?_⟩
        exact congrArg (Piece.marker name :: ·) hpieces
      | none =>
        have hc := not_markerAt_of_marker? hmarker
        obtain ⟨parts, last, hdivides, hpieces⟩ := ih rest.length (Nat.lt_succ_self _) rest rfl
        dsimp only
        rw [hpieces]
        cases hdivides with
        | last hfree => exact ⟨[], c :: rest, .last (hfree.cons hc), rfl⟩
        | @marker _ gap name rest' _ parts hfirst hrest =>
          exact ⟨(c :: gap, name) :: parts, last, .marker (hfirst.cons hc) hrest, rfl⟩

/-! ## What stands in the place of the markers -/

/-- **What stands in the place of a marker**: the text of the variable, the
local one or else the global one, and the marker itself if there is none or
it is null. -/
def replacement (locals globals : Vars) (name : List Char) : List Char :=
  match lookup locals globals (String.ofList name) with
  | none | some .null => marker name
  | some value => value.text.toList

theorem toList_replaced_marker (locals globals : Vars) (name : List Char) :
    ((Piece.marker name).replaced (insertion? locals globals)).toList =
      replacement locals globals name := by
  unfold Piece.replaced insertion? replacement
  cases h : lookup locals globals (String.ofList name) with
  | none => simp [h]
  | some value => cases value <;> simp [h]

theorem flatMap_replaced_char (text? : String → Option String) (cs : List Char) :
    ((cs.map Piece.char).flatMap fun piece => (piece.replaced text?).toList) = cs := by
  induction cs with
  | nil => rfl
  | cons c cs ih => simpa [Piece.replaced] using ih

/-- A text of which no piece is a marker stays as it is. -/
theorem substitute_of_pieces {text : String} (h : pieces text.toList = text.toList.map .char)
    (locals globals : Vars) : substitute locals globals text = text := by
  refine String.toList_inj.1 ?_
  rw [toList_substitute, h, flatMap_replaced_char]

/-- The pieces of a text without markers are its characters. -/
theorem pieces_of_markerFree {cs : List Char} (h : MarkerFree cs) : pieces cs = cs.map .char := by
  obtain ⟨parts, last, hdivides, hpieces⟩ := exists_divides cs
  obtain ⟨rfl, rfl⟩ := (Divides.last h).unique hdivides
  exact hpieces

/-- Each marker has its dollar signs. -/
theorem markerFree_of_notMem {cs : List Char} (h : '$' ∉ cs) : MarkerFree cs :=
  fun _ hafter _ hname => h (hafter.subset (hname.2.subset List.mem_cons_self))

theorem toList_replaced_piecesOf (locals globals : Vars) (parts : List (List Char × List Char))
    (last : List Char) :
    ((piecesOf parts last).flatMap fun piece =>
        (piece.replaced (insertion? locals globals)).toList) =
      (parts.flatMap fun part => part.1 ++ replacement locals globals part.2) ++ last := by
  unfold piecesOf
  rw [List.flatMap_append, flatMap_replaced_char, List.flatMap_assoc]
  simp only [List.flatMap_append, flatMap_replaced_char, List.flatMap_singleton,
    toList_replaced_marker]

/-- **Substitution replaces the markers of a text and nothing else.** A text
is divided by its markers in one way only, and the text that substitution
makes of it has the same gaps, as they are, and for each marker what stands
in its place; so nothing that has been put in is searched again. If none of
its markers names a variable that is there and not null, the text is
unchanged. -/
theorem substitute_replaces_markers (locals globals : Vars) (text : String) :
    ∃ parts last, Divides text.toList parts last ∧
      (∀ parts' last', Divides text.toList parts' last' → parts' = parts ∧ last' = last) ∧
      (substitute locals globals text).toList =
        (parts.flatMap fun part => part.1 ++ replacement locals globals part.2) ++ last ∧
      ((∀ part ∈ parts, ∀ value, lookup locals globals (String.ofList part.2) = some value →
          value = .null) →
        substitute locals globals text = text) := by
  obtain ⟨parts, last, hdivides, hpieces⟩ := exists_divides text.toList
  have hsubstitute : (substitute locals globals text).toList =
      (parts.flatMap fun part => part.1 ++ replacement locals globals part.2) ++ last := by
    rw [toList_substitute, hpieces, toList_replaced_piecesOf]
  refine ⟨parts, last, hdivides, fun _ _ => hdivides.unique, hsubstitute, fun hnone => ?_⟩
  have hkept : ∀ part ∈ parts, replacement locals globals part.2 = marker part.2 := by
    intro part hpart
    unfold replacement
    cases hlookup : lookup locals globals (String.ofList part.2) with
    | none => rfl
    | some value => rw [hnone part hpart value hlookup]
  refine String.toList_inj.1 (hsubstitute.trans ?_)
  rw [hdivides.eq, List.append_left_inj, List.flatMap_def, List.flatMap_def]
  exact congrArg List.flatten (List.map_congr_left fun part hpart => by rw [hkept part hpart])

example : substitute [("%$x", .str "$%y%$"), ("y", .null)] [("a", .int 3)]
    "$%%$x%$ $$%a%$ $%\n$%a%$ $%y%$" = "$%y%$ $3 $%\n3 $%y%$" := by decide +kernel

end TagScript.Scope
