import TagScript.Proofs.Substitution

/-!
# Substituting twice

Substitution does not search again what it has put in. Here it is shown when
it would make no difference if it did: a text in which the variables have been
put is not changed by putting them in again, as long as no value holds a
dollar sign or a percent sign and none is empty.

Most of a text that has been substituted in is as it was, so the danger is at
the seams, where a value or a marker that has stayed meets what is around it.
No seam can complete the beginning of a marker or its end, since a value has
neither of their characters and keeps its neighbours apart. What was no marker
because its line ended too early is still none, for the line still ends there
(`closing_replaced`). So the second reading finds the markers that have stayed,
at their places, and no others (`pieces_replaced`).
-/

namespace TagScript.Scope

/-- **Characters that take no part in a marker**: there are some, and none of
them is one that markers begin and end with. -/
def IsInert (cs : List Char) : Prop := cs ≠ [] ∧ '$' ∉ cs ∧ '%' ∉ cs

instance (cs : List Char) : Decidable (IsInert cs) :=
  inferInstanceAs (Decidable (cs ≠ [] ∧ '$' ∉ cs ∧ '%' ∉ cs))

/-- The characters that substitution makes of some characters. -/
def replaced (text? : String → Option String) (cs : List Char) : List Char :=
  (pieces cs).flatMap fun piece => (piece.replaced text?).toList

/-- **What a piece is once it has been substituted in**: a marker that has
stayed, or mere characters. -/
def Piece.settled (text? : String → Option String) : Piece → List Piece
  | .char c => [.char c]
  | .marker name =>
    match text? (String.ofList name) with
    | some text => text.toList.map .char
    | none => [.marker name]

/-! ## Reading a marker that has stayed -/

/-- A marker begins with a dollar sign. -/
theorem marker?_cons_of_ne {c : Char} (hc : c ≠ '$') (rest : List Char) :
    marker? (c :: rest) = none := by
  unfold marker?
  split
  · next heq => exact absurd (List.cons.inj heq).1 hc
  · rfl

/-- **Where a marker ends does not depend on what is after it.** -/
theorem closing_append {cs name rest : List Char} (h : closing cs = some (name, rest))
    (tail : List Char) : closing (name ++ '%' :: '$' :: tail) = some (name, tail) := by
  fun_induction closing cs generalizing name rest with
  | case1 rest' =>
    obtain ⟨rfl, -⟩ := Prod.mk.inj (Option.some.inj h)
    rfl
  | case2 _ => cases h
  | case3 c rest' hend hc ih =>
    obtain ⟨⟨name', rest''⟩, hr, heq⟩ := Option.map_eq_some_iff.1 h
    obtain ⟨rfl, -⟩ := Prod.mk.inj heq
    rw [List.cons_append]
    unfold closing
    split
    · next hfront =>
      -- the marker would have ended here in the first place
      obtain ⟨rfl, hnext⟩ := List.cons.inj hfront
      cases name' with
      | nil => exact absurd (List.cons.inj hnext).1 (by decide)
      | cons d name' =>
        obtain ⟨rfl, -⟩ := List.cons.inj hnext
        exact absurd (closing_eq_some hr) (hend _ rfl)
    · next hfront =>
      obtain ⟨rfl, rfl⟩ := List.cons.inj hfront
      rw [if_neg hc, ih hr]
      rfl
    · next hfront => cases hfront
  | case4 => cases h

/-- **A marker that has stayed is read again**, whatever is after it. -/
theorem marker?_append {cs name rest : List Char} (h : marker? cs = some (name, rest))
    (tail : List Char) : marker? (marker name ++ tail) = some (name, tail) := by
  unfold marker? at h
  split at h
  · next c rest' =>
    by_cases hc : c = '\n'
    · rw [if_pos hc] at h
      cases h
    · rw [if_neg hc] at h
      obtain ⟨⟨name', rest''⟩, hr, heq⟩ := Option.map_eq_some_iff.1 h
      obtain ⟨rfl, -⟩ := Prod.mk.inj heq
      have hclosing := closing_append hr tail
      simp [marker, marker?, hc, hclosing]
  · cases h

/-- A marker ends on the line on which it begins. -/
theorem closing_ne_none_of_marker? {cs name rest : List Char}
    (h : marker? cs = some (name, rest)) : closing cs ≠ none := by
  have hline : '\n' ∉ '$' :: '%' :: name :=
    List.not_mem_cons_of_ne_of_not_mem (by decide)
      (List.not_mem_cons_of_ne_of_not_mem (by decide) (isName_of_marker? h).2)
  obtain ⟨name', rest', hclosing, -⟩ := exists_closing hline rest
  have hcs : cs = '$' :: '%' :: name ++ '%' :: '$' :: rest := by
    rw [marker?_eq_some h]
    simp [marker]
  rw [hcs, hclosing]
  exact Option.some_ne_none _

/-- A marker at the front is the first piece. -/
theorem pieces_of_marker? {cs name rest : List Char} (h : marker? cs = some (name, rest)) :
    pieces cs = .marker name :: pieces rest := by
  cases cs with
  | nil => cases h
  | cons c cs => rw [pieces_cons, h]

/-- Characters without a dollar sign are pieces of their own. -/
theorem pieces_append_of_notMem {cs : List Char} (h : '$' ∉ cs) (rest : List Char) :
    pieces (cs ++ rest) = cs.map .char ++ pieces rest := by
  induction cs with
  | nil => rfl
  | cons c cs ih =>
    obtain ⟨hc, hcs⟩ := List.ne_and_not_mem_of_not_mem_cons h
    rw [List.cons_append, pieces_cons, marker?_cons_of_ne hc.symm, ih hcs]
    rfl

section Replaced

variable {text? : String → Option String}

/-! ## Piece after piece -/

/-- A marker whose variable has no text stays. -/
theorem toList_replaced_of_none {name : List Char} (h : text? (String.ofList name) = none) :
    ((Piece.marker name).replaced text?).toList = marker name := by
  rw [Piece.replaced, h, Option.getD_none, String.toList_ofList]

/-- Otherwise the text stands in its place. -/
theorem toList_replaced_of_some {name : List Char} {text : String}
    (h : text? (String.ofList name) = some text) :
    ((Piece.marker name).replaced text?).toList = text.toList := by
  rw [Piece.replaced, h, Option.getD_some]

theorem settled_of_none {name : List Char} (h : text? (String.ofList name) = none) :
    (Piece.marker name).settled text? = [.marker name] := by
  rw [Piece.settled, h]

theorem settled_of_some {name : List Char} {text : String}
    (h : text? (String.ofList name) = some text) :
    (Piece.marker name).settled text? = text.toList.map .char := by
  rw [Piece.settled, h]

/-- A marker is replaced, and then the rest. -/
theorem replaced_of_marker? {cs name rest : List Char} (h : marker? cs = some (name, rest)) :
    replaced text? cs =
      ((Piece.marker name).replaced text?).toList ++ replaced text? rest := by
  unfold replaced
  rw [pieces_of_marker? h, List.flatMap_cons]

/-- A character outside markers stays. -/
theorem replaced_cons {c : Char} {rest : List Char} (h : marker? (c :: rest) = none) :
    replaced text? (c :: rest) = c :: replaced text? rest := by
  unfold replaced
  rw [pieces_cons, h]
  simp [Piece.replaced]

/-- A piece that has settled is not replaced by anything else. -/
theorem flatMap_replaced_settled (piece : Piece) :
    ((piece.settled text?).flatMap fun piece => (piece.replaced text?).toList) =
      (piece.replaced text?).toList := by
  cases piece with
  | char c => exact List.flatMap_singleton _ _
  | marker name =>
    cases h : text? (String.ofList name) with
    | none => rw [settled_of_none h, List.flatMap_singleton]
    | some text => rw [settled_of_some h, flatMap_replaced_char, toList_replaced_of_some h]

variable (htexts : ∀ name text, text? name = some text → IsInert text.toList)
include htexts

/-! ## The seams -/

/-- **No dollar sign and no percent sign comes to stand in front.** -/
theorem head?_of_head?_replaced {cs : List Char} {d : Char} (hd : d = '$' ∨ d = '%')
    (h : (replaced text? cs).head? = some d) : cs.head? = some d := by
  cases cs with
  | nil => exact h
  | cons c rest =>
    cases hmarker : marker? (c :: rest) with
    | none =>
      rw [replaced_cons hmarker] at h
      exact h
    | some found =>
      obtain ⟨name, rest'⟩ := found
      rw [replaced_of_marker? hmarker] at h
      rw [marker?_eq_some hmarker]
      cases htext : text? (String.ofList name) with
      | none =>
        rw [toList_replaced_of_none htext] at h
        exact h
      | some text =>
        obtain ⟨hne, hdollar, hpercent⟩ := htexts _ _ htext
        obtain ⟨e, es, hes⟩ := List.exists_cons_of_ne_nil hne
        rw [toList_replaced_of_some htext, hes] at h
        obtain rfl : e = d := Option.some.inj h
        have hmem : e ∈ text.toList := hes ▸ List.mem_cons_self
        obtain rfl | rfl := hd
        · exact absurd hmem hdollar
        · exact absurd hmem hpercent

/-- **Where no marker ends on a line, none does after substitution.** Up to the
end of the line there is no marker that could be replaced. -/
theorem closing_replaced {cs : List Char} (h : closing cs = none) :
    closing (replaced text? cs) = none := by
  induction cs with
  | nil => rfl
  | cons c rest ih =>
    have hmarker : marker? (c :: rest) = none :=
      Option.eq_none_iff_forall_ne_some.2 fun _ hmarker => closing_ne_none_of_marker? hmarker h
    rw [replaced_cons hmarker]
    unfold closing
    split
    · next tail hfront =>
      obtain ⟨rfl, hnext⟩ := List.cons.inj hfront
      have hhead := head?_of_head?_replaced htexts (.inl rfl) (congrArg List.head? hnext)
      obtain ⟨rest', rfl⟩ := List.head?_eq_some_iff.1 hhead
      cases h
    · next heq =>
      obtain ⟨rfl, rfl⟩ := List.cons.inj heq
      by_cases hc : c = '\n'
      · rw [if_pos hc]
      · rw [if_neg hc, ih (closing_eq_none_of_cons hc h)]
        rfl
    · rfl

/-- **Where there is no marker, there is none after substitution.** -/
theorem marker?_replaced {c : Char} {rest : List Char} (h : marker? (c :: rest) = none) :
    marker? (c :: replaced text? rest) = none := by
  unfold marker?
  split
  · next d more hfront =>
    obtain ⟨rfl, hnext⟩ := List.cons.inj hfront
    -- the percent sign has been there before, so a marker has been begun that does not end
    have hhead := head?_of_head?_replaced htexts (.inr rfl) (congrArg List.head? hnext)
    obtain ⟨rest, rfl⟩ := List.head?_eq_some_iff.1 hhead
    rw [replaced_cons (marker?_cons_of_ne (by decide) _)] at hnext
    obtain ⟨-, hnext⟩ := List.cons.inj hnext
    cases rest with
    | nil => cases hnext
    | cons e rest =>
      by_cases he : e = '\n'
      · subst he
        rw [replaced_cons (marker?_cons_of_ne (by decide) _)] at hnext
        exact if_pos (List.cons.inj hnext).1.symm
      · have hclosing : closing rest = none := by simpa [marker?, he] using h
        rw [replaced_cons (marker?_eq_none_of_closing e hclosing)] at hnext
        obtain ⟨rfl, rfl⟩ := List.cons.inj hnext
        rw [if_neg he, closing_replaced htexts hclosing]
        rfl
  · rfl

/-- **The pieces of a text that has been substituted in** are its own pieces,
settled. -/
theorem pieces_replaced (cs : List Char) :
    pieces (replaced text? cs) = (pieces cs).flatMap (Piece.settled text?) := by
  induction hn : cs.length using Nat.strongRecOn generalizing cs with
  | _ n ih =>
    cases cs with
    | nil => rfl
    | cons c rest =>
      subst hn
      cases hmarker : marker? (c :: rest) with
      | none =>
        rw [replaced_cons hmarker, pieces_cons, marker?_replaced htexts hmarker, pieces_cons,
          hmarker]
        exact congrArg (Piece.char c :: ·) (ih rest.length (Nat.lt_succ_self _) rest rfl)
      | some found =>
        obtain ⟨name, rest'⟩ := found
        have hrest := ih _ (length_lt_of_marker?_eq_some hmarker) rest' rfl
        rw [replaced_of_marker? hmarker, pieces_of_marker? hmarker, List.flatMap_cons, ← hrest]
        cases htext : text? (String.ofList name) with
        | none =>
          rw [toList_replaced_of_none htext, settled_of_none htext]
          exact pieces_of_marker? (marker?_append hmarker _)
        | some text =>
          rw [toList_replaced_of_some htext, settled_of_some htext]
          exact pieces_append_of_notMem (htexts _ _ htext).2.1 _

/-- **What has been substituted in once is not changed by it again.** -/
theorem replaced_replaced (cs : List Char) :
    replaced text? (replaced text? cs) = replaced text? cs := by
  have hpieces := pieces_replaced htexts cs
  unfold replaced at hpieces ⊢
  rw [hpieces, List.flatMap_assoc, List.flatMap_def, List.flatMap_def]
  exact congrArg List.flatten (List.map_congr_left fun piece _ => flatMap_replaced_settled piece)

end Replaced

/-! ## Texts -/

theorem isInert_of_insertion? {locals globals : Vars}
    (hlocals : ∀ entry ∈ locals, entry.2 ≠ .null → IsInert entry.2.text.toList)
    (hglobals : ∀ entry ∈ globals, entry.2 ≠ .null → IsInert entry.2.text.toList)
    {name text : String} (h : insertion? locals globals name = some text) :
    IsInert text.toList := by
  unfold insertion? at h
  split at h
  · cases h
  · cases h
  · next value hnull hlookup =>
    obtain rfl := Option.some.inj h
    obtain hlocal | ⟨-, hglobal⟩ := Option.or_eq_some_iff.1 hlookup
    · exact hlocals _ (Dict.mem_of_get?_eq_some hlocal) (by simpa using hnull)
    · exact hglobals _ (Dict.mem_of_get?_eq_some hglobal) (by simpa using hnull)

/-- **Putting the variables in twice is putting them in once**, if no variable
is empty and none has a dollar sign or a percent sign in it. Null variables
have no say, since their markers stay. -/
theorem substitute_idempotent {locals globals : Vars}
    (hlocals : ∀ entry ∈ locals, entry.2 ≠ .null → IsInert entry.2.text.toList)
    (hglobals : ∀ entry ∈ globals, entry.2 ≠ .null → IsInert entry.2.text.toList)
    (text : String) :
    substitute locals globals (substitute locals globals text) =
      substitute locals globals text := by
  have htexts : ∀ name text, insertion? locals globals name = some text → IsInert text.toList :=
    fun _ _ => isInert_of_insertion? hlocals hglobals
  have honce (source : String) : (substitute locals globals source).toList =
      replaced (insertion? locals globals) source.toList := toList_substitute locals globals source
  refine String.toList_inj.1 ?_
  rw [honce, honce, replaced_replaced htexts]

/-- A text whose markers stand close to each other: a dollar sign in front of
one and the end of another behind it, one that stays within reach of an end,
and one that is begun and whose line ends. -/
theorem crowded_idempotent :
    (∀ entry ∈ ([("a", .str "x\ny"), ("n", .null)] : Vars),
      entry.2 ≠ .null → IsInert entry.2.text.toList) ∧
    (∀ entry ∈ ([("a", .int 1), ("b", .int 3)] : Vars),
      entry.2 ≠ .null → IsInert entry.2.text.toList) ∧
    substitute [("a", .str "x\ny"), ("n", .null)] [("a", .int 1), ("b", .int 3)]
        "$$%a%$%b%$ $%n%$%b%$ $%b\n%$$%b%$" = "$x\ny%b%$ $%n%$%b%$ $%b\n%$3" ∧
    substitute [("a", .str "x\ny"), ("n", .null)] [("a", .int 1), ("b", .int 3)]
        "$x\ny%b%$ $%n%$%b%$ $%b\n%$3" = "$x\ny%b%$ $%n%$%b%$ $%b\n%$3" := by
  have hlocals : ∀ entry ∈ ([("a", .str "x\ny"), ("n", .null)] : Vars),
      entry.2 ≠ .null → IsInert entry.2.text.toList := by
    intro entry hentry hnull
    obtain rfl | hentry := List.mem_cons.1 hentry
    · decide +kernel
    · obtain rfl := List.mem_singleton.1 hentry
      exact absurd rfl hnull
  have hglobals : ∀ entry ∈ ([("a", .int 1), ("b", .int 3)] : Vars),
      entry.2 ≠ .null → IsInert entry.2.text.toList := by
    intro entry hentry _
    obtain rfl | hentry := List.mem_cons.1 hentry
    · decide +kernel
    · obtain rfl := List.mem_singleton.1 hentry
      decide +kernel
  have honce : substitute [("a", .str "x\ny"), ("n", .null)] [("a", .int 1), ("b", .int 3)]
      "$$%a%$%b%$ $%n%$%b%$ $%b\n%$$%b%$" = "$x\ny%b%$ $%n%$%b%$ $%b\n%$3" := by decide +kernel
  refine ⟨hlocals, hglobals, honce, ?_⟩
  have htwice := substitute_idempotent hlocals hglobals "$$%a%$%b%$ $%n%$%b%$ $%b\n%$$%b%$"
  rwa [honce] at htwice

/-- An empty value lets its neighbours form a marker. -/
example : substitute [("a", .str ""), ("b", .int 3)] [] "$$%a%$%b%$" = "$%b%$" := by decide +kernel

end TagScript.Scope
