import Mathlib.Data.List.TakeWhile
import TagScript.Proofs.Idempotence
import TagScript.Proofs.Json
import TagScript.Scope.Template

/-!
# What a template means

A template has a meaning that does not speak of reading it: what is outside
its placeholders stays as it is, and what is put in for a placeholder is the
text of the value that its name leads to. Two things are to be said for that.
Which placeholders there are: of those that stand anywhere in a text the
leftmost, and then the leftmost of those in the text after it; at one place
there is one at most, since a name ends where a blank or a brace comes. And
where a name leads: from a variable on, by the keys of maps and the places of
arrays. `Renders` says the first and `Leads` the second, and the text that is
made of a template is the only one that has this meaning
(`render_eq_iff_renders`).

A placeholder of a single segment is filled as a marker of that name is
replaced, as long as there is a value that is not null.
-/

namespace TagScript

namespace Template

/-! ## Placeholders -/

/-- **The names in placeholders**: a letter or an underscore, and then word
characters and points. -/
def IsName (name : List Char) : Prop :=
  ∃ c rest, name = c :: rest ∧ Text.isWordStart c = true ∧ ∀ d ∈ rest, isNameChar d = true

/-- **Characters spell a placeholder**: a name between braces, and blanks
around it. -/
def Spells (cs name : List Char) : Prop :=
  ∃ front back, (∀ c ∈ front, Text.isBlank c = true) ∧ (∀ c ∈ back, Text.isBlank c = true) ∧
    IsName name ∧ cs = '{' :: '{' :: front ++ name ++ back ++ ['}', '}']

/-- Whether a placeholder stands in front of some characters. -/
def Begins (cs : List Char) : Prop :=
  ∃ spelled name rest, Spells spelled name ∧ cs = spelled ++ rest

/-- No placeholder begins before so many of some characters have passed. -/
def FreeUpTo (n : Nat) (cs : List Char) : Prop :=
  ∀ before after, cs = before ++ after → before.length < n → ¬Begins after

/-- **What a template becomes**, given what placeholders are filled with. -/
inductive Renders (fills : List Char → List Char → Prop) : List Char → List Char → Prop where
  /-- Without placeholders it stays as it is. -/
  | free {cs : List Char} (h : FreeUpTo cs.length cs) : Renders fills cs cs
  /-- The first placeholder is filled, and the characters in front of it stay.
  Those after it are a template of their own, and what has been put in is not
  part of it. -/
  | fill {gap spelled name text rest out : List Char} (hspells : Spells spelled name)
      (hgap : FreeUpTo gap.length (gap ++ (spelled ++ rest))) (htext : fills name text)
      (hrest : Renders fills rest out) :
      Renders fills (gap ++ (spelled ++ rest)) (gap ++ (text ++ out))

/-! ## Where a name leads -/

/-- The segments of a name: what stands between its points, without what is
empty. -/
def segmentsOf (name : List Char) : List (List Char) :=
  (name.splitOn '.').filter (· ≠ [])

/-- **Characters number a place**: they are digits, and the number is that of
a machine word. -/
structure Numbers (cs : List Char) (n : Nat) : Prop where
  ne_nil : cs ≠ []
  isDigit : ∀ c ∈ cs, c.isDigit = true
  value : Nat.ofDigitChars 10 cs 0 = n
  lt : n < 0x10000000000000000

/-- **A value leads to another one** along some segments. -/
inductive Leads : Value → List (List Char) → Value → Prop where
  /-- It is reached. -/
  | here (v : Value) : Leads v [] v
  /-- A segment is the key of a map. -/
  | key {entries : Vars} {segment : List Char} {path : List (List Char)} {v w : Value}
      (h : Dict.get? entries (String.ofList segment) = some v) (hrest : Leads v path w) :
      Leads (.map entries) (segment :: path) w
  /-- A segment is the place of an item of an array. -/
  | place {items : List Value} {segment : List Char} {path : List (List Char)} {n : Nat}
      {v w : Value}
      (hn : Numbers segment n) (h : items[n]? = some v) (hrest : Leads v path w) :
      Leads (.array items) (segment :: path) w

/-- **A name leads to a value**, from its variable on. -/
def LeadsFrom (value? : String → Option Value) (name : List Char) (w : Value) : Prop :=
  ∃ head path v, segmentsOf name = head :: path ∧ value? (String.ofList head) = some v ∧
    Leads v path w

/-- **What a placeholder is filled with**: the text of the value that its name
leads to, and nothing if it leads to none or to null. -/
inductive Fills (value? : String → Option Value) (name : List Char) : List Char → Prop where
  /-- It leads to a value. -/
  | value {w : Value} (h : LeadsFrom value? name w) (hnull : w ≠ .null) :
      Fills value? name w.text.toList
  /-- It leads to no value but null. -/
  | nothing (h : ∀ w, LeadsFrom value? name w → w = .null) : Fills value? name []

/-! ## The reader finds the placeholders -/

theorem Spells.isName {cs name : List Char} (h : Spells cs name) : IsName name := by
  obtain ⟨_, _, _, _, hname, _⟩ := h
  exact hname

/-- A blank is no character of a name. -/
theorem isNameChar_of_isBlank {c : Char} (h : Text.isBlank c = true) : isNameChar c = false := by
  have hblanks : ∀ n ∈ [0x09, 0x0A, 0x0B, 0x0C, 0x0D, 0x20, 0x85, 0xA0, 0x1680, 0x2000, 0x2001,
      0x2002, 0x2003, 0x2004, 0x2005, 0x2006, 0x2007, 0x2008, 0x2009, 0x200A, 0x2028, 0x2029,
      0x202F, 0x205F, 0x3000], isNameChar (Char.ofNat n) = false := by decide +kernel
  rw [← Char.ofNat_toNat c]
  refine hblanks c.toNat ?_
  simp only [Text.isBlank, Bool.or_eq_true, Bool.and_eq_true, decide_eq_true_eq, beq_iff_eq] at h
  simp only [List.mem_cons, List.not_mem_nil, or_false]
  omega

/-- Nor are the signs that end placeholders, markers and lines, and that of a number. -/
theorem isNameChar_eq_false {c : Char} (h : c ∈ ['}', '%', '\n', '+']) : isNameChar c = false := by
  have hsigns : (['}', '%', '\n', '+'].all fun c => !isNameChar c) = true := by decide +kernel
  simpa using List.all_eq_true.1 hsigns c h

theorem isNameChar_of_isWordStart {c : Char} (h : Text.isWordStart c = true) :
    isNameChar c = true := by
  rw [isNameChar, Text.isWord_of_isWordStart h, Bool.true_or]

theorem IsName.isNameChar {name : List Char} (h : IsName name) :
    ∀ c ∈ name, Template.isNameChar c = true := by
  obtain ⟨c, rest, rfl, hc, hrest⟩ := h
  intro d hd
  obtain rfl | hd := List.mem_cons.1 hd
  · exact isNameChar_of_isWordStart hc
  · exact hrest d hd

/-- What is dropped in front of a character that stays. -/
theorem dropWhile_append {p : Char → Bool} {front rest : List Char}
    (hfront : ∀ c ∈ front, p c = true) (hrest : ∀ c ∈ rest.head?, p c = false) :
    (front ++ rest).dropWhile p = rest := by
  rw [List.dropWhile_append_of_pos hfront, Text.dropWhile_eq_self hrest]

/-- What is taken in front of a character that is not. -/
theorem takeWhile_append {p : Char → Bool} {front rest : List Char}
    (hfront : ∀ c ∈ front, p c = true) (hrest : ∀ c ∈ rest.head?, p c = false) :
    (front ++ rest).takeWhile p = front := by
  have hnil : rest.takeWhile p = [] := by
    cases rest with
    | nil => rfl
    | cons c rest => exact List.takeWhile_cons_of_neg (Bool.not_eq_true _ ▸ hrest c rfl)
  rw [List.takeWhile_append_of_pos hfront, hnil, List.append_nil]

theorem placeholder?_braces (inner : List Char) :
    placeholder? ('{' :: '{' :: inner) =
      match inner.dropWhile Text.isBlank with
      | [] => none
      | c :: rest =>
        if !Text.isWordStart c then none
        else
          match (rest.dropWhile isNameChar).dropWhile Text.isBlank with
          | '}' :: '}' :: after => some (c :: rest.takeWhile isNameChar, after)
          | _ => none := rfl

/-- **A placeholder in front is read**, whatever is after it. -/
theorem placeholder?_of_spells {spelled name : List Char} (h : Spells spelled name)
    (rest : List Char) : placeholder? (spelled ++ rest) = some (name, rest) := by
  obtain ⟨front, back, hfront, hback, ⟨c, more, rfl, hc, hmore⟩, rfl⟩ := h
  have hshape : '{' :: '{' :: front ++ c :: more ++ back ++ ['}', '}'] ++ rest =
      '{' :: '{' :: (front ++ c :: (more ++ (back ++ '}' :: '}' :: rest))) := by simp
  have hname : (front ++ c :: (more ++ (back ++ '}' :: '}' :: rest))).dropWhile Text.isBlank =
      c :: (more ++ (back ++ '}' :: '}' :: rest)) := by
    refine dropWhile_append hfront fun d hd => ?_
    obtain rfl := Option.some.inj hd
    cases hblank : Text.isBlank c with
    | false => rfl
    | true => exact absurd (isNameChar_of_isBlank hblank) (by simp [isNameChar_of_isWordStart hc])
  have hend : ∀ d ∈ (back ++ '}' :: '}' :: rest).head?, isNameChar d = false := by
    intro d hd
    cases back with
    | nil =>
      obtain rfl := Option.some.inj hd
      exact isNameChar_eq_false (by simp)
    | cons b back =>
      obtain rfl := Option.some.inj hd
      exact isNameChar_of_isBlank (hback _ List.mem_cons_self)
  have hclose : (back ++ '}' :: '}' :: rest).dropWhile Text.isBlank = '}' :: '}' :: rest :=
    dropWhile_append hback fun d hd => by
      obtain rfl := Option.some.inj hd
      decide
  rw [hshape, placeholder?_braces, hname]
  dsimp only
  rw [hc, takeWhile_append hmore hend, dropWhile_append hmore hend, hclose]
  rfl

/-- **What is read is a placeholder.** -/
theorem exists_spells_of_placeholder? {cs name rest : List Char}
    (h : placeholder? cs = some (name, rest)) :
    ∃ spelled, Spells spelled name ∧ cs = spelled ++ rest := by
  unfold placeholder? at h
  split at h
  · next inner =>
    split at h
    · cases h
    · next c more hname =>
      split at h
      · cases h
      · next hc =>
        dsimp only at h
        split at h
        · next rest' hclose =>
          obtain ⟨rfl, rfl⟩ := Prod.mk.inj (Option.some.inj h)
          have hinner := List.takeWhile_append_dropWhile (p := Text.isBlank) (l := inner)
          have hmore := List.takeWhile_append_dropWhile (p := isNameChar) (l := more)
          have hback := List.takeWhile_append_dropWhile (p := Text.isBlank)
            (l := more.dropWhile isNameChar)
          refine ⟨_, ⟨inner.takeWhile Text.isBlank,
            (more.dropWhile isNameChar).takeWhile Text.isBlank,
            fun _ => List.mem_takeWhile_imp, fun _ => List.mem_takeWhile_imp,
            ⟨c, _, rfl, by simpa using hc, fun _ => List.mem_takeWhile_imp⟩, rfl⟩, ?_⟩
          rw [hclose] at hback
          rw [hname] at hinner
          calc '{' :: '{' :: inner
            _ = '{' :: '{' :: (inner.takeWhile Text.isBlank ++ c :: (more.takeWhile isNameChar ++
                ((more.dropWhile isNameChar).takeWhile Text.isBlank ++ '}' :: '}' :: rest'))) := by
              rw [hback, hmore, hinner]
            _ = _ := by simp only [List.cons_append, List.append_assoc, List.nil_append]
        · cases h
  · cases h

theorem placeholder?_eq_none_iff {cs : List Char} : placeholder? cs = none ↔ ¬Begins cs := by
  constructor
  · rintro h ⟨spelled, name, rest, hspells, rfl⟩
    rw [placeholder?_of_spells hspells] at h
    cases h
  · intro h
    refine Option.eq_none_iff_forall_ne_some.2 fun ⟨name, rest⟩ hread => h ?_
    obtain ⟨spelled, hspells, rfl⟩ := exists_spells_of_placeholder? hread
    exact ⟨spelled, name, rest, hspells, rfl⟩

/-! ## Rendering finds the same placeholders -/

theorem length_lt_of_placeholder? {cs name rest : List Char}
    (h : placeholder? cs = some (name, rest)) : rest.length < cs.length := by
  obtain ⟨spelled, ⟨_, _, _, _, _, rfl⟩, rfl⟩ := exists_spells_of_placeholder? h
  simp only [List.cons_append, List.length_cons, List.length_append]
  omega

/-- The pieces do not depend on a bound that is great enough. -/
theorem piecesWithin_bound {cs : List Char} {bound : Nat} (h : cs.length ≤ bound) :
    piecesWithin bound cs = piecesWithin cs.length cs := by
  induction bound using Nat.strongRecOn generalizing cs with
  | _ bound ih =>
    cases cs with
    | nil => cases bound <;> rfl
    | cons c rest =>
      obtain ⟨bound, rfl⟩ := Nat.exists_eq_add_one_of_ne_zero
        (Nat.ne_of_gt (Nat.lt_of_lt_of_le (Nat.succ_pos _) h))
      have hrest : rest.length ≤ bound := Nat.le_of_succ_le_succ h
      -- what is left is no longer than the characters after the first
      have hleft {left : List Char} (hle : left.length ≤ rest.length) :
          piecesWithin bound left = piecesWithin rest.length left := by
        rw [ih bound (Nat.lt_succ_self _) (Nat.le_trans hle hrest)]
        exact (ih rest.length (Nat.lt_succ_of_le hrest) hle).symm
      simp only [piecesWithin, List.length_cons]
      split
      · next name left hread =>
        rw [hleft (Nat.le_of_lt_succ (length_lt_of_placeholder? hread))]
      · rw [hleft (Nat.le_refl _)]

/-- A character at which no placeholder begins is a piece. -/
theorem pieces_cons {c : Char} {rest : List Char} (h : placeholder? (c :: rest) = none) :
    pieces (c :: rest) = .char c :: pieces rest := by
  unfold pieces
  rw [List.length_cons, piecesWithin, h]

/-- **A placeholder in front is the first piece.** -/
theorem pieces_spelled {spelled name : List Char} (h : Spells spelled name) (rest : List Char) :
    pieces (spelled ++ rest) = .placeholder name :: pieces rest := by
  have hread := placeholder?_of_spells h rest
  obtain ⟨front, back, -, -, -, rfl⟩ := h
  have hlength := length_lt_of_placeholder? hread
  simp only [List.cons_append, List.length_cons] at hread hlength ⊢
  rw [pieces, List.length_cons, piecesWithin, hread]
  exact congrArg (Piece.placeholder name :: ·) (piecesWithin_bound (Nat.le_of_lt_succ hlength))

/-- **In front of the first placeholder all pieces are characters.** -/
theorem pieces_of_freeUpTo {gap tail : List Char} (h : FreeUpTo gap.length (gap ++ tail)) :
    pieces (gap ++ tail) = gap.map .char ++ pieces tail := by
  induction gap with
  | nil => rfl
  | cons c gap ih =>
    have hfirst : placeholder? (c :: (gap ++ tail)) = none :=
      placeholder?_eq_none_iff.2 (h [] _ rfl (Nat.succ_pos _))
    have hlater : FreeUpTo gap.length (gap ++ tail) := fun before after heq hlt =>
      h (c :: before) after (congrArg (c :: ·) heq) (Nat.succ_lt_succ hlt)
    rw [List.cons_append, pieces_cons hfirst, ih hlater]
    rfl

/-- A character at which no placeholder begins belongs to what is free. -/
theorem FreeUpTo.cons {n : Nat} {c : Char} {cs : List Char} (h : FreeUpTo n cs)
    (hc : placeholder? (c :: cs) = none) : FreeUpTo (n + 1) (c :: cs) := by
  intro before after heq hlt
  cases before with
  | nil =>
    obtain rfl : c :: cs = after := heq
    exact placeholder?_eq_none_iff.1 hc
  | cons b before => exact h before after (List.cons.inj heq).2 (Nat.lt_of_succ_lt_succ hlt)

/-- What a piece becomes if placeholders are filled so. -/
def Piece.filledBy (fill : List Char → List Char) : Piece → List Char
  | .char c => [c]
  | .placeholder name => fill name

theorem flatMap_filledBy_char (fill : List Char → List Char) (cs : List Char) :
    (cs.map Piece.char).flatMap (Piece.filledBy fill) = cs := by
  rw [List.flatMap_map]
  exact List.flatMap_singleton' cs

section Renders

variable {fills : List Char → List Char → Prop} {fill : List Char → List Char}
  (hfills : ∀ name, IsName name → ∀ text, fills name text ↔ text = fill name)
include hfills

/-- What a template becomes is made of its pieces. -/
theorem Renders.eq {cs out : List Char} (h : Renders fills cs out) :
    out = (pieces cs).flatMap (Piece.filledBy fill) := by
  induction h with
  | @free cs h =>
    have hpieces := @pieces_of_freeUpTo cs [] (by rwa [List.append_nil])
    rw [List.append_nil] at hpieces
    rw [hpieces, List.flatMap_append, flatMap_filledBy_char]
    exact (List.append_nil cs).symm
  | @fill gap spelled name text rest out hspells hgap htext hrest ih =>
    have hname := hspells.isName
    rw [pieces_of_freeUpTo hgap, pieces_spelled hspells, List.flatMap_append,
      flatMap_filledBy_char, List.flatMap_cons, ← ih, (hfills name hname text).1 htext]
    rfl

/-- Every template becomes something. -/
theorem exists_renders (cs : List Char) : ∃ out, Renders fills cs out := by
  induction hn : cs.length using Nat.strongRecOn generalizing cs with
  | _ n ih =>
    cases cs with
    | nil => exact ⟨[], .free nofun⟩
    | cons c rest =>
      subst hn
      cases hread : placeholder? (c :: rest) with
      | some found =>
        obtain ⟨name, left⟩ := found
        obtain ⟨out, hout⟩ := ih _ (length_lt_of_placeholder? hread) left rfl
        obtain ⟨spelled, hspells, heq⟩ := exists_spells_of_placeholder? hread
        have hname := hspells.isName
        rw [heq]
        exact ⟨_, @Renders.fill _ [] _ _ _ _ _ hspells nofun ((hfills name hname _).2 rfl) hout⟩
      | none =>
        obtain ⟨out, hout⟩ := ih rest.length (Nat.lt_succ_self _) rest rfl
        cases hout with
        | free hfree => exact ⟨_, .free (hfree.cons hread)⟩
        | @fill gap spelled name text left out hspells hgap htext hrest =>
          exact ⟨_, @Renders.fill _ (c :: gap) _ _ _ _ _ hspells (hgap.cons hread) htext hrest⟩

/-- **A template becomes what its pieces become**, and nothing else. -/
theorem renders_iff {cs out : List Char} :
    Renders fills cs out ↔ out = (pieces cs).flatMap (Piece.filledBy fill) := by
  refine ⟨fun h => h.eq hfills, ?_⟩
  rintro rfl
  obtain ⟨out, hout⟩ := exists_renders hfills cs
  rwa [← hout.eq hfills]

end Renders

/-! ## Walking finds the same values -/

/-- A number that has reached the limit stays. -/
theorem foldl_of_le {limit m : Nat} (h : limit ≤ m) (cs : List Char) :
    cs.foldl (fun n c => if n < limit then n * 10 + (c.toNat - '0'.toNat) else n) m = m := by
  induction cs with
  | nil => rfl
  | cons c cs ih => rw [List.foldl_cons, if_neg (Nat.not_lt.2 h), ih]

/-- **Reading up to a limit is reading all digits** of a number below it. -/
theorem foldl_eq_ofDigitChars {limit m : Nat} {cs : List Char}
    (h : cs.foldl (fun n c => if n < limit then n * 10 + (c.toNat - '0'.toNat) else n) m < limit ∨
      Nat.ofDigitChars 10 cs m < limit) :
    cs.foldl (fun n c => if n < limit then n * 10 + (c.toNat - '0'.toNat) else n) m =
      Nat.ofDigitChars 10 cs m := by
  induction cs generalizing m with
  | nil => rfl
  | cons c cs ih =>
    obtain hlt | hle := Nat.lt_or_ge m limit
    · rw [List.foldl_cons, if_pos hlt, Nat.mul_comm] at h ⊢
      exact ih h
    · rw [foldl_of_le hle] at h
      have hgrows := Json.le_ofDigitChars (c :: cs) m
      omega

theorem index?_ofList {cs : List Char} (hsign : '+' ∉ cs) :
    Decimal.index? (String.ofList cs) =
      if cs.isEmpty || !cs.all Char.isDigit then none
      else if Decimal.ofDigitsUpTo 0x10000000000000000 cs < 0x10000000000000000 then
        some (Decimal.ofDigitsUpTo 0x10000000000000000 cs)
      else none := by
  unfold Decimal.index?
  rw [String.toList_ofList]
  dsimp only
  split
  · exact absurd List.mem_cons_self hsign
  · rfl

/-- **The number of a place is read**, unless there is a sign in front. -/
theorem index?_eq_some_iff {cs : List Char} (hsign : '+' ∉ cs) {n : Nat} :
    Decimal.index? (String.ofList cs) = some n ↔ Numbers cs n := by
  rw [index?_ofList hsign]
  unfold Decimal.ofDigitsUpTo
  constructor
  · intro h
    split at h
    · cases h
    · next hvalid =>
      split at h
      · next hlt =>
        obtain rfl := Option.some.inj h
        have hdigits : cs.isEmpty = false ∧ cs.all Char.isDigit = true := by simpa using hvalid
        exact ⟨List.isEmpty_eq_false_iff.1 hdigits.1, List.all_eq_true.1 hdigits.2,
          (foldl_eq_ofDigitChars (.inl hlt)).symm, hlt⟩
      · cases h
  · rintro ⟨hne, hdigit, rfl, hlt⟩
    rw [foldl_eq_ofDigitChars (.inr hlt), if_pos hlt, if_neg]
    rw [List.isEmpty_eq_false_iff.2 hne, List.all_eq_true.2 hdigit]
    decide

/-- A walk ends where its path leads. -/
theorem walk?_eq_some_iff {path : List (List Char)} (hsign : ∀ segment ∈ path, '+' ∉ segment)
    {v w : Value} : walk? v (path.map String.ofList) = some w ↔ Leads v path w := by
  induction path generalizing v with
  | nil =>
    rw [List.map_nil, walk?]
    constructor
    · intro h
      obtain rfl := Option.some.inj h
      exact .here v
    · rintro ⟨⟩
      rfl
  | cons segment path ih =>
    obtain ⟨hfirst, hrest⟩ := List.forall_mem_cons.1 hsign
    constructor
    · intro h
      rw [List.map_cons] at h
      unfold walk? at h
      split at h
      · next heq => cases heq
      · next entries key path' heq =>
        obtain ⟨rfl, rfl⟩ := List.cons.inj heq
        split at h
        · next v hget => exact .key hget ((ih hrest).1 h)
        · cases h
      · next items index path' heq =>
        obtain ⟨rfl, rfl⟩ := List.cons.inj heq
        split at h
        · next n hn =>
          split at h
          · next v hget => exact .place ((index?_eq_some_iff hfirst).1 hn) hget ((ih hrest).1 h)
          · cases h
        · cases h
      · cases h
    · rintro (_ | ⟨hget, hleads⟩ | ⟨hn, hget, hleads⟩)
      · rw [List.map_cons, walk?, hget]
        exact (ih hrest).2 hleads
      · rw [List.map_cons, walk?, (index?_eq_some_iff hfirst).2 hn]
        dsimp only
        rw [hget]
        exact (ih hrest).2 hleads

/-- Trimming leaves characters alone of which none is blank. -/
theorem trimChars_eq_self {cs : List Char} (h : ∀ c ∈ cs, Text.isBlank c = false) :
    Text.trimChars cs = cs := by
  have hback : ∀ c ∈ cs.reverse.head?, Text.isBlank c = false := fun c hc =>
    h c (List.mem_reverse.1 (List.mem_of_mem_head? hc))
  rw [Text.trimChars, Text.dropWhile_eq_self fun c hc => h c (List.mem_of_mem_head? hc),
    Text.dropWhile_eq_self hback, List.reverse_reverse]

theorem mem_of_mem_segmentsOf {name segment : List Char} (h : segment ∈ segmentsOf name) :
    segment ⊆ name := by
  unfold segmentsOf at h
  rw [← Text.splitChars_eq_splitOn] at h
  exact Text.subset_of_mem_splitChars (List.mem_filter.1 h).1

/-- **The segments of a name are read as they are.** -/
theorem segments_ofList {name : List Char} (h : IsName name) :
    Text.segments '.' (String.ofList name) = (segmentsOf name).map String.ofList := by
  have htrim : ∀ piece ∈ Text.splitChars '.' name,
      (Text.trim ∘ String.ofList) piece = String.ofList piece := by
    intro piece hpiece
    rw [Function.comp_apply, Text.trim, String.toList_ofList, trimChars_eq_self fun c hc => ?_]
    cases hblank : Text.isBlank c with
    | false => rfl
    | true =>
      have hname := h.isNameChar c (Text.subset_of_mem_splitChars hpiece hc)
      rw [isNameChar_of_isBlank hblank] at hname
      cases hname
  unfold Text.segments Text.split segmentsOf
  rw [String.toList_ofList, ← Text.splitChars_eq_splitOn, List.map_map,
    List.map_congr_left htrim, List.filter_map]
  refine congrArg (List.map String.ofList) (List.filter_congr fun piece _ => ?_)
  cases piece <;> simp

/-- **A name leads where its value is looked for.** -/
theorem leadsFrom_iff {name : List Char} (h : IsName name) {value? : String → Option Value}
    {w : Value} : LeadsFrom value? name w ↔ reach? value? (String.ofList name) = some w := by
  have hsign : ∀ segment ∈ segmentsOf name, '+' ∉ segment := by
    intro segment hsegment hplus
    have hname := h.isNameChar '+' (mem_of_mem_segmentsOf hsegment hplus)
    rw [isNameChar_eq_false (by simp)] at hname
    cases hname
  unfold LeadsFrom reach?
  rw [segments_ofList h]
  cases hsegments : segmentsOf name with
  | nil => simp
  | cons head path =>
    rw [hsegments] at hsign
    have hwalk (v : Value) : walk? v (path.map String.ofList) = some w ↔ Leads v path w :=
      walk?_eq_some_iff (List.forall_mem_cons.1 hsign).2
    rw [List.map_cons]
    dsimp only
    rw [Option.bind_eq_some_iff]
    constructor
    · rintro ⟨head', path', v, heq, hvalue, hleads⟩
      obtain ⟨rfl, rfl⟩ := List.cons.inj heq
      exact ⟨v, hvalue, (hwalk v).2 hleads⟩
    · rintro ⟨v, hvalue, hreach⟩
      exact ⟨head, path, v, rfl, hvalue, (hwalk v).1 hreach⟩

/-- The text that rendering puts in the place of a placeholder. -/
def filling (value? : String → Option Value) (name : List Char) : List Char :=
  ((reach? value? (String.ofList name)).getD .null).text.toList

theorem filling_of_none {name : List Char} {value? : String → Option Value}
    (h : reach? value? (String.ofList name) = none) : filling value? name = [] := by
  rw [filling, h]
  rfl

theorem filling_of_some {name : List Char} {value? : String → Option Value} {w : Value}
    (h : reach? value? (String.ofList name) = some w) : filling value? name = w.text.toList := by
  rw [filling, h, Option.getD_some]

/-- **Rendering fills a placeholder as its name says.** -/
theorem fills_iff {name : List Char} (h : IsName name) (value? : String → Option Value)
    (text : List Char) : Fills value? name text ↔ text = filling value? name := by
  cases hreach : reach? value? (String.ofList name) with
  | none =>
    have hnone : ∀ w, ¬LeadsFrom value? name w := by
      intro w hleads
      rw [leadsFrom_iff h, hreach] at hleads
      cases hleads
    rw [filling_of_none hreach]
    constructor
    · rintro (⟨hleads, _⟩ | _)
      · exact absurd hleads (hnone _)
      · rfl
    · rintro rfl
      exact .nothing fun w hleads => absurd hleads (hnone w)
  | some w =>
    have hleads : LeadsFrom value? name w := (leadsFrom_iff h).2 hreach
    have hunique : ∀ v, LeadsFrom value? name v → v = w := by
      intro v hv
      rw [leadsFrom_iff h, hreach] at hv
      exact (Option.some.inj hv).symm
    rw [filling_of_some hreach]
    constructor
    · rintro (⟨hv, _⟩ | hnull)
      · rw [hunique _ hv]
      · rw [hnull w hleads]
        rfl
    · rintro rfl
      by_cases hnull : w = .null
      · subst hnull
        exact .nothing hunique
      · exact .value hleads hnull

/-! ## Rendering -/

theorem toList_render_eq (value? : String → Option Value) (source : String) :
    (render value? source).toList =
      (pieces source.toList).flatMap (Piece.filledBy (filling value?)) := by
  rw [toList_render, List.flatMap_def, List.flatMap_def]
  refine congrArg List.flatten (List.map_congr_left fun piece _ => ?_)
  cases piece with
  | char c => exact String.toList_singleton c
  | placeholder name => rfl

/-- **Rendering gives a template the text it means**, and there is no other. -/
theorem renders_iff_render_eq (value? : String → Option Value) (source : String)
    (out : List Char) :
    Renders (Fills value?) source.toList out ↔ (render value? source).toList = out := by
  rw [renders_iff fun _ hname => fills_iff hname value?, toList_render_eq]
  exact eq_comm

end Template

/-! ## Both layers of variables as one -/

/-- **The variables of both layers as one read as they do in the layers.** -/
theorem Scope.get?_combined {locals : Vars} (h : locals.Ascending) (globals : Vars) (key : String) :
    (combined locals globals).get? key = lookup locals globals key := by
  unfold combined lookup
  by_cases hkey : key ∈ locals.map Prod.fst
  · obtain ⟨⟨key, value⟩, hentry, rfl⟩ := List.mem_map.1 hkey
    have hlocal : locals.get? key = some value := by
      rw [← Dict.ofList_of_ascending h]
      exact Dict.get?_insertAll_of_mem h.nodup_keys hentry _
    rw [Dict.get?_insertAll_of_mem h.nodup_keys hentry, hlocal]
    rfl
  · have hlocal : locals.get? key = none :=
      Option.eq_none_iff_forall_ne_some.2 fun value hget =>
        hkey (List.mem_map_of_mem (Dict.mem_of_get?_eq_some hget))
    rw [Dict.get?_insertAll_of_not_mem hkey, hlocal]
    rfl

/-- The end of a marker is found behind a name without percent signs. -/
theorem Scope.closing_of_notMem {name : List Char} (hpercent : '%' ∉ name) (hline : '\n' ∉ name)
    (rest : List Char) : closing (name ++ '%' :: '$' :: rest) = some (name, rest) := by
  induction name with
  | nil => rfl
  | cons c name ih =>
    obtain ⟨hc, hname⟩ := List.ne_and_not_mem_of_not_mem_cons hpercent
    obtain ⟨hc', hname'⟩ := List.ne_and_not_mem_of_not_mem_cons hline
    rw [List.cons_append]
    unfold closing
    split
    · next heq => exact absurd (List.cons.inj heq).1.symm hc
    · next heq =>
      obtain ⟨rfl, rfl⟩ := List.cons.inj heq
      rw [if_neg hc'.symm, ih hname hname']
      rfl
    · next heq => cases heq

namespace Template

/-! ## A placeholder and a marker of one name -/

/-- **A marker of a placeholder's name** is a marker. -/
theorem pieces_marker {name : List Char} (h : IsName name) :
    Scope.pieces (Scope.marker name) = [.marker name] := by
  have hsign {c : Char} (hc : c ∈ ['}', '%', '\n', '+']) : c ∉ name := fun hmem => by
    have hname := h.isNameChar c hmem
    rw [isNameChar_eq_false hc] at hname
    cases hname
  have hpercent : '%' ∉ name := hsign (by simp)
  have hline : '\n' ∉ name := hsign (by simp)
  obtain ⟨c, rest, rfl, -, -⟩ := h
  have hc : c ≠ '\n' := (List.ne_and_not_mem_of_not_mem_cons hline).1.symm
  have hclosing := Scope.closing_of_notMem (List.ne_and_not_mem_of_not_mem_cons hpercent).2
    (List.ne_and_not_mem_of_not_mem_cons hline).2 []
  have hmarker : Scope.marker? (Scope.marker (c :: rest)) = some (c :: rest, []) := by
    simp [Scope.marker, Scope.marker?, hc, hclosing]
  exact Scope.pieces_of_marker? hmarker

/-- A name without points leads to its variable. -/
theorem reach?_of_notMem {name : List Char} (h : IsName name) (hpoint : '.' ∉ name)
    {value? : String → Option Value} {value : Value}
    (hvalue : value? (String.ofList name) = some value) :
    reach? value? (String.ofList name) = some value := by
  have hsegments : segmentsOf name = [name] := by
    obtain ⟨c, rest, rfl, -, -⟩ := h
    rw [segmentsOf, List.splitOn_eq_singleton hpoint]
    rfl
  exact (leadsFrom_iff h).1 ⟨name, [], value, hsegments, hvalue, .here value⟩

/-- **A placeholder of a single segment is filled as a marker is replaced**, if
there is a value that is not null. -/
theorem render_spelled {locals globals : Vars} {spelled name : List Char}
    (hspells : Spells spelled name) (hpoint : '.' ∉ name) {value : Value}
    (hvalue : Scope.lookup locals globals (String.ofList name) = some value)
    (hnull : value ≠ .null) :
    render (Scope.lookup locals globals) (String.ofList spelled) =
      Scope.substitute locals globals (String.ofList (Scope.marker name)) := by
  have hname : IsName name := hspells.isName
  have hpieces : pieces spelled = [.placeholder name] := by
    have h := pieces_spelled hspells []
    rwa [List.append_nil] at h
  refine String.toList_inj.1 ?_
  calc (render (Scope.lookup locals globals) (String.ofList spelled)).toList
    _ = value.text.toList := by
      rw [toList_render_eq, String.toList_ofList, hpieces, List.flatMap_singleton]
      exact filling_of_some (reach?_of_notMem hname hpoint hvalue)
    _ = Scope.replacement locals globals name := by
      rw [Scope.replacement, hvalue]
      cases value with
      | null => exact absurd rfl hnull
      | _ => rfl
    _ = (Scope.substitute locals globals (String.ofList (Scope.marker name))).toList := by
      rw [Scope.toList_substitute, String.toList_ofList, pieces_marker hname,
        List.flatMap_singleton, Scope.toList_replaced_marker]

/-- **What a template means.** Let a template be rendered with the variables of
both layers as one. Then its text outside the placeholders stays as it is –
these are the leftmost ones, one after the other –, each of them gives way to
the text of the value that its name leads to, or to nothing, and what has been
put in is not looked at again: the text that comes out is the one that the
template means, and there is no other.

The variables read as they do in the two layers, the local ones first. So a
placeholder whose name is a single segment, with or without blanks around it,
is filled as a marker of that name is replaced, if the variable is there and
not null.

The local names ascend, as they do wherever a run is:
`Engine.IsOrderly.ascending_locals`. -/
theorem render_eq_iff_renders {locals : Vars} (hlocals : locals.Ascending) (globals : Vars) :
    (∀ source out, (render (Scope.combined locals globals).get? source).toList = out ↔
      Renders (Fills (Scope.lookup locals globals)) source.toList out) ∧
    (∀ key, (Scope.combined locals globals).get? key = Scope.lookup locals globals key) ∧
    ∀ spelled name value, Spells spelled name → '.' ∉ name →
      Scope.lookup locals globals (String.ofList name) = some value → value ≠ .null →
      render (Scope.combined locals globals).get? (String.ofList spelled) =
        Scope.substitute locals globals (String.ofList (Scope.marker name)) := by
  have hkeys : ∀ key, (Scope.combined locals globals).get? key = Scope.lookup locals globals key :=
    Scope.get?_combined hlocals globals
  have hlayers : (Scope.combined locals globals).get? = Scope.lookup locals globals := funext hkeys
  refine ⟨fun source out => ?_, hkeys, fun spelled name value hspells hpoint hvalue hnull => ?_⟩
  · rw [hlayers]
    exact (renders_iff_render_eq (Scope.lookup locals globals) source out).symm
  · rw [hlayers]
    exact render_spelled hspells hpoint hvalue hnull

/-- Local variables, one of which holds the text of a placeholder. -/
def visitor : Vars :=
  [("n", .null), ("user", .map [("names", .array [.str "Ada", .str "Lovelace"])]),
    ("x", .str "\x7b\x7by\x7d\x7d")]

/-- Global variables, one of which is hidden by a local one. -/
def site : Vars := [("x", .str "hidden"), ("y", .int 3)]

/-- A template with braces that belong to no placeholder, a name with an empty
segment, and names that lead to nothing, to null and out of an array. -/
def greeting : String :=
  "\x7b\x7b\x7b user..names.01\x7d\x7d\x7d \x7b\x7bx\x7d\x7d\x7b\x7b\ty\x7d\x7d \x7b\x7bn\x7d\x7d\x7b\x7buser.names.2\x7d\x7d\x7b\x7b 1\x7d\x7d"

/-- Its meaning, and a placeholder beside a marker. -/
theorem greeting_renders :
    visitor.Ascending ∧
    Renders (Fills (Scope.lookup visitor site)) greeting.toList
      "\x7bLovelace\x7d \x7b\x7by\x7d\x7d3 \x7b\x7b 1\x7d\x7d".toList ∧
    (Scope.combined visitor site).get? "x" = Scope.lookup visitor site "x" ∧
    Spells "\x7b\x7b x\x7d\x7d".toList ['x'] ∧
    Scope.lookup visitor site "x" = some (.str "\x7b\x7by\x7d\x7d") ∧
    render (Scope.combined visitor site).get? "\x7b\x7b x\x7d\x7d" =
      Scope.substitute visitor site "$%x%$" := by
  have hlocals : visitor.Ascending := by decide +kernel
  have hspells : Spells "\x7b\x7b x\x7d\x7d".toList ['x'] :=
    ⟨[' '], [], List.forall_mem_singleton.2 rfl, nofun, ⟨'x', [], rfl, by decide, nofun⟩,
      by decide +kernel⟩
  have hvalue : Scope.lookup visitor site "x" = some (.str "\x7b\x7by\x7d\x7d") := rfl
  obtain ⟨hmeaning, hkeys, hmarker⟩ := render_eq_iff_renders hlocals site
  refine ⟨hlocals, ?_, hkeys "x", hspells, hvalue, ?_⟩
  · exact (hmeaning _ _).1 (by decide +kernel)
  · exact hmarker _ ['x'] _ hspells (by decide) hvalue nofun

end Template

end TagScript
