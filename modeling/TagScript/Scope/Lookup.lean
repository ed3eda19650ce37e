import TagScript.Value.Text

/-!
# Scopes: reading variables and substituting them in texts

A tag sees two layers of variables: its local ones, and behind them the
global ones that all tags share. A text may refer to a variable by a
marker, `$%name%$`, and is then read with the variable's text in the
marker's place. A marker starts at the first place where one can start,
is as short as it can be, names at least one character and does not run
over a line feed. A marker whose variable is absent or null stays as it
is, and what has been put in is not searched again.
-/

namespace TagScript

/-- The variables of one layer. -/
abbrev Vars := Dict Value

namespace Scope

/-- **The value of a variable**: the local one, or else the global one. -/
def lookup (locals globals : Vars) (key : String) : Option Value :=
  (locals.get? key).or (globals.get? key)

/-- Both layers as one, local variables in front of global ones. -/
def combined (locals globals : Vars) : Vars := globals.insertAll locals

/-- The two layers after an assignment to one of them. -/
def assign (locals globals : Vars) (key : String) (value : Value) (toGlobal : Bool) :
    Vars × Vars :=
  if toGlobal then (locals, globals.insert key value) else (locals.insert key value, globals)

/-! ## Markers -/

/-- The characters up to the end of a marker, and the rest after it; there
is none beyond a line feed. -/
def closing : List Char → Option (List Char × List Char)
  | '%' :: '$' :: rest => some ([], rest)
  | c :: rest => if c = '\n' then none else (closing rest).map fun (name, rest) => (c :: name, rest)
  | [] => none

/-- **The marker at the front of some characters**: the name in it, and the
rest after it. -/
def marker? : List Char → Option (List Char × List Char)
  | '$' :: '%' :: c :: rest =>
    if c = '\n' then none else (closing rest).map fun (name, rest) => (c :: name, rest)
  | _ => none

/-- A marker with this name in it. -/
def marker (name : List Char) : List Char := '$' :: '%' :: name ++ ['%', '$']

/-- A stretch of a text: a character outside markers, or a marker. -/
inductive Piece where
  /-- A character that is part of no marker. -/
  | char (c : Char)
  /-- A marker, by the name in it. -/
  | marker (name : List Char)
  deriving DecidableEq, Repr

/-- Whether some characters begin as a marker does. -/
def beginsMarker : List Char → Bool
  | '$' :: '%' :: c :: _ => c != '\n'
  | _ => false

/-- The pieces of a text; `bound` is at least the number of its
characters. Once a marker has been begun that does not end on its line,
none does before the next line, and nothing is `sought` there. -/
def piecesWithin (sought : Bool) : (bound : Nat) → List Char → List Piece
  | _, [] => []
  | 0, _ :: _ => []
  | bound + 1, c :: rest =>
    if c = '\n' then .char c :: piecesWithin true bound rest
    else if !sought then .char c :: piecesWithin false bound rest
    else
      match marker? (c :: rest) with
      | some (name, rest) => .marker name :: piecesWithin true bound rest
      | none => .char c :: piecesWithin (!beginsMarker (c :: rest)) bound rest

/-- **The pieces of a text.** -/
def pieces (cs : List Char) : List Piece := piecesWithin true cs.length cs

/-- What a piece becomes, given what variables stand for. -/
def Piece.replaced (text? : String → Option String) : Piece → String
  | .char c => String.singleton c
  | .marker name => (text? (String.ofList name)).getD (String.ofList (Scope.marker name))

/-- The text a variable puts in the place of its marker: none if it is
absent or null. -/
def insertion? (locals globals : Vars) (name : String) : Option String :=
  match lookup locals globals name with
  | some .null | none => none
  | some value => some value.text

/-- **A text with the variables in place of their markers.** -/
def substitute (locals globals : Vars) (text : String) : String :=
  String.join ((pieces text.toList).map (Piece.replaced (insertion? locals globals)))

/-! ## Small laws -/

/-- What a marker's reader takes is the marker and nothing else. -/
theorem closing_eq_some {cs name rest : List Char} (h : closing cs = some (name, rest)) :
    cs = name ++ '%' :: '$' :: rest := by
  fun_induction closing cs generalizing name rest with
  | case1 rest' =>
    simp only [Option.some.injEq, Prod.mk.injEq] at h
    obtain ⟨rfl, rfl⟩ := h
    rfl
  | case2 _ => simp at h
  | case3 c rest' _ _ ih =>
    obtain ⟨⟨name', rest''⟩, hr, heq⟩ := Option.map_eq_some_iff.1 h
    simp only [Prod.mk.injEq] at heq
    obtain ⟨rfl, rfl⟩ := heq
    simp [ih hr]
  | case4 => simp at h

/-- A marker is read off the front of a text that begins with it. -/
theorem marker?_eq_some {cs name rest : List Char} (h : marker? cs = some (name, rest)) :
    cs = marker name ++ rest := by
  unfold marker? at h
  split at h
  · next c rest' =>
    by_cases hc : c = '\n'
    · simp [hc] at h
    · rw [if_neg hc] at h
      obtain ⟨⟨name', rest''⟩, hr, heq⟩ := Option.map_eq_some_iff.1 h
      simp only [Prod.mk.injEq] at heq
      obtain ⟨rfl, rfl⟩ := heq
      simp [marker, closing_eq_some hr]
  · simp at h

/-- A marker is shorter than what it is read off. -/
theorem length_lt_of_marker?_eq_some {cs name rest : List Char}
    (h : marker? cs = some (name, rest)) : rest.length < cs.length := by
  rw [marker?_eq_some h]
  simp [marker]
  omega

/-- Where no marker ends on a line, none ends on the rest of the line. -/
theorem closing_eq_none_of_cons {c : Char} {rest : List Char} (hc : c ≠ '\n')
    (h : closing (c :: rest) = none) : closing rest = none := by
  unfold closing at h
  split at h
  · simp at h
  · next heq =>
    simp only [List.cons.injEq] at heq
    obtain ⟨rfl, rfl⟩ := heq
    simpa [hc] using h
  · contradiction

/-- Where no marker ends on a line after its first character, there is
none at its front. -/
theorem marker?_eq_none_of_closing (c : Char) {rest : List Char} (h : closing rest = none) :
    marker? (c :: rest) = none := by
  unfold marker?
  split
  · next d rest' heq =>
    simp only [List.cons.injEq] at heq
    obtain ⟨rfl, rfl⟩ := heq
    by_cases hd : d = '\n'
    · rw [if_pos hd]
    · rw [if_neg hd, closing_eq_none_of_cons hd (closing_eq_none_of_cons (by decide) h)]
      rfl
  · rfl

/-- Seeking markers where none ends on the line finds none. -/
theorem piecesWithin_sought (c : Char) {rest : List Char} (h : closing rest = none) (sought : Bool)
    (bound : Nat) :
    piecesWithin sought bound (c :: rest) = piecesWithin false bound (c :: rest) := by
  induction bound generalizing sought c rest with
  | zero => rfl
  | succ bound ih =>
    by_cases hc : c = '\n'
    · simp [piecesWithin, hc]
    cases sought with
    | false => rfl
    | true =>
      simp only [piecesWithin, hc, marker?_eq_none_of_closing c h, if_false, Bool.not_true,
        Bool.not_false, Bool.false_eq_true, if_true]
      cases rest with
      | nil => cases bound <;> rfl
      | cons d rest =>
        by_cases hd : d = '\n'
        · cases bound <;> simp [piecesWithin, hd]
        · rw [ih d (closing_eq_none_of_cons hd h)]

/-- After characters that begin as a marker does and are none, seeking
markers on the line finds none. -/
theorem piecesWithin_of_beginsMarker {c : Char} {rest : List Char}
    (hb : beginsMarker (c :: rest) = true) (hm : marker? (c :: rest) = none) (bound : Nat) :
    piecesWithin false bound rest = piecesWithin true bound rest := by
  unfold beginsMarker at hb
  split at hb
  · next d rest' heq =>
    simp only [List.cons.injEq] at heq
    obtain ⟨rfl, rfl⟩ := heq
    have hd : d ≠ '\n' := by simpa using hb
    have hr : closing rest' = none := by simpa [marker?, hd] using hm
    cases bound with
    | zero => rfl
    | succ bound =>
      have hp : marker? ('%' :: d :: rest') = none := rfl
      simp [piecesWithin, hp, beginsMarker, piecesWithin_sought d hr true]
  · simp at hb

/-- Any bound that is not below the number of the characters will do. -/
theorem piecesWithin_bound {cs : List Char} {bound : Nat} (sought : Bool)
    (h : cs.length ≤ bound) : piecesWithin sought bound cs = piecesWithin sought cs.length cs := by
  induction bound using Nat.strongRecOn generalizing sought cs with
  | _ bound ih =>
    cases cs with
    | nil => cases bound <;> rfl
    | cons c rest =>
      obtain ⟨bound, rfl⟩ : ∃ n, bound = n + 1 := ⟨bound - 1, by simp at h; omega⟩
      have hr : rest.length ≤ bound := by simpa using h
      simp only [piecesWithin, List.length_cons]
      have key : ∀ (b : Bool) (cs : List Char), cs.length ≤ rest.length →
          piecesWithin b bound cs = piecesWithin b rest.length cs := by
        intro b cs hcs
        rw [ih bound (by omega) b (by omega)]
        by_cases hb : rest.length < bound + 1
        · exact (ih rest.length hb b hcs).symm
        · omega
      split
      · rw [key _ _ (Nat.le_refl _)]
      · split
        · rw [key _ _ (Nat.le_refl _)]
        · split
          · next name rest' hm =>
            have := length_lt_of_marker?_eq_some hm
            rw [key _ _ (by simp at this; omega)]
          · rw [key _ _ (Nat.le_refl _)]

/-- **The pieces of a text, one after the other**: a marker where there is
one, and otherwise a character. -/
theorem pieces_cons (c : Char) (rest : List Char) :
    pieces (c :: rest) =
      match marker? (c :: rest) with
      | some (name, rest) => .marker name :: pieces rest
      | none => .char c :: pieces rest := by
  unfold pieces
  simp only [piecesWithin, List.length_cons]
  by_cases hc : c = '\n'
  · subst hc
    have hm : marker? ('\n' :: rest) = none := rfl
    rw [hm, if_pos rfl]
  · split
    · contradiction
    · simp only [Bool.not_true, Bool.false_eq_true, if_false]
      cases hm : marker? (c :: rest) with
      | some found =>
        obtain ⟨name, rest'⟩ := found
        have := length_lt_of_marker?_eq_some hm
        simp only [List.cons.injEq, true_and]
        exact piecesWithin_bound true (by simp at this; omega)
      | none =>
        simp only [List.cons.injEq, true_and]
        cases hb : beginsMarker (c :: rest) with
        | false => rfl
        | true =>
          exact piecesWithin_of_beginsMarker hb hm _

/-- The characters of a text with the variables put in are those of its
pieces. -/
theorem toList_substitute (locals globals : Vars) (text : String) :
    (substitute locals globals text).toList =
      (pieces text.toList).flatMap fun piece =>
        (piece.replaced (insertion? locals globals)).toList := by
  rw [substitute, String.toList_join, List.flatMap_map]

/-- A local variable hides the global one of its name. -/
@[simp] theorem lookup_insert_self (locals globals : Vars) (key : String) (value : Value) :
    lookup (locals.insert key value) globals key = some value := by
  simp [lookup]

end Scope

end TagScript
