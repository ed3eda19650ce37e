/-!
# Blank characters and what is cut at them

Keys, names and fields are read with the blanks around them cut off, and
lists of names are read off a text at its commas. What counts as blank is
the Unicode property White_Space: the ASCII blanks, the no-break space,
the typographic spaces and the line and paragraph separators, but neither
the zero-width space nor the byte order mark.
-/

namespace TagScript.Text

/-- **The characters of White_Space.** -/
def isBlank (c : Char) : Bool :=
  let n := c.toNat
  (0x09 ≤ n && n ≤ 0x0D) || n == 0x20 || n == 0x85 || n == 0xA0 || n == 0x1680
    || (0x2000 ≤ n && n ≤ 0x200A) || n == 0x2028 || n == 0x2029 || n == 0x202F
    || n == 0x205F || n == 0x3000

/-- Characters without the blanks at both ends. -/
def trimChars (cs : List Char) : List Char :=
  ((cs.dropWhile isBlank).reverse.dropWhile isBlank).reverse

/-- **A text without the blanks at both ends.** -/
def trim (s : String) : String := String.ofList (trimChars s.toList)

/-- Whether nothing but blanks is in a text. -/
def isAllBlank (s : String) : Bool := s.toList.all isBlank

/-- The pieces of a character list between the separators; there is one
piece more than there are separators. -/
def splitChars (separator : Char) : List Char → List (List Char)
  | [] => [[]]
  | c :: rest =>
    if c = separator then [] :: splitChars separator rest
    else match splitChars separator rest with
      | [] => [[c]]
      | piece :: pieces => (c :: piece) :: pieces

/-- The pieces of a text between the separators. -/
def split (separator : Char) (s : String) : List String :=
  (splitChars separator s.toList).map String.ofList

/-- The pieces of a text between the separators, trimmed, without the
empty ones. -/
def segments (separator : Char) (s : String) : List String :=
  ((split separator s).map trim).filter fun piece => !piece.isEmpty

/-- **The names of a comma-separated list.** -/
def names (s : String) : List String := segments ',' s

/-- The runs of characters that are not blank. -/
def wordsOfChars : List Char → List (List Char)
  | [] => []
  | c :: rest =>
    if isBlank c then wordsOfChars rest
    else match rest, wordsOfChars rest with
      | next :: _, word :: words =>
        if isBlank next then [c] :: word :: words else (c :: word) :: words
      | _, words => [c] :: words

/-- The words of a text: what stands between its blanks. -/
def words (s : String) : List String := (wordsOfChars s.toList).map String.ofList

/-- The text with its ASCII capitals made small; no other letter has case
here. -/
def lower (s : String) : String := String.ofList (s.toList.map Char.toLower)

/-- Whether two texts differ at most in the case of ASCII letters. -/
def sameIgnoringCase (a b : String) : Bool := lower a == lower b

/-- The texts joined, with a separator between two neighbours. -/
def joinWith (separator : String) (texts : List String) : String := separator.intercalate texts

/-- Characters with every occurrence of a two-character pattern replaced
by one character, read from left to right. -/
def replacePair (first second replacement : Char) : List Char → List Char
  | a :: b :: rest =>
    if a = first ∧ b = second then replacement :: replacePair first second replacement rest
    else a :: replacePair first second replacement (b :: rest)
  | cs => cs

/-- A text with every occurrence of a character replaced by a text. -/
def replaceChar (s : String) (c : Char) (replacement : String) : String :=
  String.ofList (s.toList.flatMap fun d => if d = c then replacement.toList else [d])

/-- The mark that may precede a text file. -/
def byteOrderMark : Char := Char.ofNat 0xFEFF

/-- A text without the byte order marks in front of it, however many. -/
def dropMarks (s : String) : String :=
  String.ofList (s.toList.dropWhile (· == byteOrderMark))

/-! ## Small laws -/

/-- Nothing is dropped in front of a character that stays. -/
theorem dropWhile_eq_self {p : Char → Bool} {cs : List Char} (h : ∀ c ∈ cs.head?, p c = false) :
    cs.dropWhile p = cs := by
  cases cs with
  | nil => rfl
  | cons c rest => exact List.dropWhile_cons_of_neg (Bool.not_eq_true _ ▸ h c rfl)

/-- A text that does not begin with a mark stays as it is. -/
theorem dropMarks_eq_self {s : String} (h : ∀ c ∈ s.toList.head?, c ≠ byteOrderMark) :
    dropMarks s = s := by
  rw [dropMarks, dropWhile_eq_self fun c hc => beq_eq_false_iff_ne.2 (h c hc), String.ofList_toList]

/-- A text without a character stays as it is when the character is
replaced. -/
theorem replaceChar_of_not_mem {s : String} {c : Char} (h : c ∉ s.toList) (replacement : String) :
    replaceChar s c replacement = s := by
  have hkept : s.toList.flatMap (fun d => if d = c then replacement.toList else [d]) = s.toList := by
    have hsingle : ∀ d ∈ s.toList, (if d = c then replacement.toList else [d]) = [d] := by
      intro d hd
      refine if_neg ?_
      rintro rfl
      exact h hd
    rw [List.flatMap_def, List.map_congr_left hsingle, ← List.flatMap_def,
      List.flatMap_singleton']
  rw [replaceChar, hkept, String.ofList_toList]

theorem splitChars_ne_nil (separator : Char) (cs : List Char) :
    splitChars separator cs ≠ [] := by
  cases cs with
  | nil => simp [splitChars]
  | cons c rest =>
    by_cases hc : c = separator
    · simp [splitChars, hc]
    · simp only [splitChars, hc, if_false]
      split <;> simp

/-- The pieces between separators are those that the library finds. -/
theorem splitChars_eq_splitOn (separator : Char) (cs : List Char) :
    splitChars separator cs = cs.splitOn separator := by
  induction cs with
  | nil => rfl
  | cons c cs ih =>
    unfold List.splitOn at ih ⊢
    rw [splitChars, ih, List.splitOnP_cons_eq_if_modifyHead]
    by_cases hc : c = separator
    · rw [if_pos hc, if_pos (beq_iff_eq.2 hc)]
    · rw [if_neg hc, if_neg (by simpa using hc)]
      split
      · next heq => exact absurd heq (List.splitOnP_ne_nil _ _)
      · next heq => rw [heq]; rfl

/-- **Joining the pieces with the separator restores the characters.** -/
theorem intercalate_splitChars (separator : Char) (cs : List Char) :
    [separator].intercalate (splitChars separator cs) = cs := by
  rw [splitChars_eq_splitOn, List.intercalate_splitOn]

theorem splitChars_append_cons (separator : Char) (front back : List Char) :
    splitChars separator (front ++ separator :: back) =
      splitChars separator front ++ splitChars separator back := by
  simp only [splitChars_eq_splitOn, List.splitOn_append_cons_self]

/-- A character that does not separate begins the first piece. -/
theorem splitChars_cons_of_ne {separator c : Char} (hc : c ≠ separator) (cs : List Char) :
    ∃ piece pieces, splitChars separator cs = piece :: pieces ∧
      splitChars separator (c :: cs) = (c :: piece) :: pieces := by
  obtain ⟨piece, pieces, hcs⟩ := List.exists_cons_of_ne_nil (splitChars_ne_nil separator cs)
  refine ⟨piece, pieces, hcs, ?_⟩
  rw [splitChars, if_neg hc, hcs]

/-- Any other character than the separator is in one of the pieces. -/
theorem mem_iff_mem_splitChars {separator c : Char} (hc : c ≠ separator) (cs : List Char) :
    c ∈ cs ↔ ∃ piece ∈ splitChars separator cs, c ∈ piece := by
  induction cs with
  | nil => simp [splitChars]
  | cons d cs ih =>
    rw [List.mem_cons, ih]
    by_cases hd : d = separator
    · subst hd
      simp [splitChars, hc]
    · obtain ⟨piece, pieces, hcs, hcons⟩ := splitChars_cons_of_ne hd cs
      rw [hcs, hcons]
      simp [or_assoc]

/-- The separator is in none of them. -/
theorem separator_notMem {separator : Char} {cs piece : List Char}
    (h : piece ∈ splitChars separator cs) : separator ∉ piece := by
  induction cs generalizing piece with
  | nil =>
    rw [List.mem_singleton.1 h]
    exact List.not_mem_nil
  | cons c cs ih =>
    by_cases hc : c = separator
    · rw [splitChars, if_pos hc] at h
      obtain rfl | h := List.mem_cons.1 h
      · exact List.not_mem_nil
      · exact ih h
    · obtain ⟨first, pieces, hcs, hcons⟩ := splitChars_cons_of_ne hc cs
      rw [hcons] at h
      rw [hcs] at ih
      obtain rfl | h := List.mem_cons.1 h
      · exact List.not_mem_cons_of_ne_of_not_mem (Ne.symm hc) (ih List.mem_cons_self)
      · exact ih (List.mem_cons_of_mem first h)

/-- What stands between separators was there before. -/
theorem subset_of_mem_splitChars {separator : Char} {cs piece : List Char}
    (h : piece ∈ splitChars separator cs) : piece ⊆ cs := by
  intro c hmem
  have hc : c ≠ separator := by
    rintro rfl
    exact separator_notMem h hmem
  exact (mem_iff_mem_splitChars hc cs).2 ⟨piece, h, hmem⟩

/-- **Texts that have been joined are found again**, if there are any and the
separator is in none of them. -/
theorem split_joinWith {separator : Char} {glue : String} {texts : List String}
    (hglue : glue.toList = [separator]) (htexts : texts ≠ [])
    (h : ∀ text ∈ texts, separator ∉ text.toList) : split separator (joinWith glue texts) = texts := by
  have hpieces : ∀ cs ∈ texts.map String.toList, separator ∉ cs := by
    intro cs hcs
    obtain ⟨text, htext, rfl⟩ := List.mem_map.1 hcs
    exact h text htext
  rw [split, joinWith, String.toList_intercalate, splitChars_eq_splitOn, hglue,
    List.splitOn_intercalate separator hpieces (by simpa using htexts), List.map_map]
  simp

/-- **The pieces of a text, joined again, are the text.** -/
theorem joinWith_split {separator : Char} {glue : String} (hglue : glue.toList = [separator])
    (s : String) : joinWith glue (split separator s) = s := by
  have hpieces : (split separator s).map String.toList = splitChars separator s.toList := by
    simp [split, List.map_map, Function.comp_def]
  rw [← String.toList_inj, joinWith, String.toList_intercalate, hpieces, hglue,
    intercalate_splitChars]

/-- After dropping, the next character is one that stays. -/
theorem not_of_mem_head?_dropWhile (p : Char → Bool) (cs : List Char) :
    ∀ c ∈ (cs.dropWhile p).head?, p c = false := by
  intro c hc
  have hhead := List.head?_dropWhile_not p cs
  rw [Option.mem_def.1 hc] at hhead
  exact hhead

/-- **What has been trimmed is trimmed.** -/
theorem trimChars_trimChars (cs : List Char) : trimChars (trimChars cs) = trimChars cs := by
  have hfront : (trimChars cs).dropWhile isBlank = trimChars cs := by
    refine dropWhile_eq_self fun c hc => ?_
    -- what is left begins as it did before the blanks at its end were cut
    have hprefix : trimChars cs <+: cs.dropWhile isBlank := by
      have hsuffix := List.dropWhile_suffix isBlank (l := (cs.dropWhile isBlank).reverse)
      rw [trimChars]
      exact List.reverse_suffix.1 (by rwa [List.reverse_reverse])
    obtain ⟨rest, hrest⟩ := hprefix
    refine not_of_mem_head?_dropWhile isBlank cs c ?_
    rw [← hrest, List.head?_append]
    exact Option.or_eq_some_iff.2 (.inl hc)
  have hback : (trimChars cs).reverse.dropWhile isBlank = (trimChars cs).reverse := by
    refine dropWhile_eq_self fun c hc => ?_
    rw [trimChars, List.reverse_reverse] at hc
    exact not_of_mem_head?_dropWhile isBlank _ c hc
  rw [trimChars, hfront, hback, List.reverse_reverse]

theorem trim_trim (s : String) : trim (trim s) = trim s := by
  rw [trim, trim, String.toList_ofList, trimChars_trimChars]

end TagScript.Text
