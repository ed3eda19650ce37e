import TagScript.Json.Reader
import TagScript.Json.Writer
import TagScript.Text.Blank

/-!
# JSON is read as it was written

The reader undoes the writer on every value without doubles that nests no
deeper than the reader goes: `Json.parse?_text`. What JSON has no form for
comes back as null, and all else comes back unchanged – every integer of
64 bits, every text with whatever control characters, quotation marks and
backslashes in it, every key.

The proof follows the reader. Each of its parts takes the written form of
its own part of a value off the front of the characters and leaves the
rest alone, provided the rest does not go on with a number, which what
follows an item or a member never does.
-/

namespace TagScript.Json

/-! ## Texts -/

/-- The four digits of a control character spell it. -/
theorem unit?_control {n : Nat} (h : n < 0x20) :
    unit? '0' '0' (Nat.digitChar (n / 16)) (Nat.digitChar (n % 16)) = some n := by
  have hall : ∀ n < 0x20,
      unit? '0' '0' (Nat.digitChar (n / 16)) (Nat.digitChar (n % 16)) = some n := by decide
  exact hall n h

theorem isLeadingUnit_control {n : Nat} (h : n < 0x20) : isLeadingUnit n = false := by
  simp only [isLeadingUnit, Bool.and_eq_false_imp, decide_eq_true_eq]
  omega

theorem isTrailingUnit_control {n : Nat} (h : n < 0x20) : isTrailingUnit n = false := by
  simp only [isTrailingUnit, Bool.and_eq_false_imp, decide_eq_true_eq]
  omega

/-- An escaped control character is read as it is. -/
theorem readText_control {c : Char} (h : c.toNat < 0x20) (rest : List Char) :
    readText ('\\' :: 'u' :: '0' :: '0' :: Nat.digitChar (c.toNat / 16)
      :: Nat.digitChar (c.toNat % 16) :: rest) = push c (readText rest) := by
  rw [readText, unit?_control h]
  dsimp only
  rw [isLeadingUnit_control h, isTrailingUnit_control h, Char.ofNat_toNat]
  rfl

/-- So is a character that needs no escape. -/
theorem readText_of_plain {c : Char} (hquote : c ≠ '"') (hslash : c ≠ '\\')
    (hcontrol : ¬c.toNat < 0x20) (rest : List Char) :
    readText (c :: rest) = push c (readText rest) := by
  rw [readText, if_neg hcontrol]
  · exact hquote
  · intro a b c d rest' h _
    exact hslash h
  · intro d rest' h _
    exact hslash h

/-- **A character is read as it was written**, escaped or not. -/
theorem readText_escapeChar (c : Char) (rest : List Char) :
    readText (escapeChar c ++ rest) = push c (readText rest) := by
  unfold escapeChar
  split
  case h_6 hquote hslash _ _ _ =>
    split
    · next hbackspace =>
      rw [← Char.ofNat_toNat c, hbackspace]
      rfl
    · split
      · next hfeed =>
        rw [← Char.ofNat_toNat c, hfeed]
        rfl
      · split
        · next hcontrol => exact readText_control hcontrol rest
        · next hcontrol => exact readText_of_plain hquote hslash hcontrol rest
  all_goals rfl

/-- **Characters are read up to the closing quotation mark.** -/
theorem readText_flatMap_escapeChar (cs rest : List Char) :
    readText (cs.flatMap escapeChar ++ '"' :: rest) = some (cs, rest) := by
  induction cs with
  | nil => rfl
  | cons c cs ih =>
    rw [List.flatMap_cons, List.append_assoc, readText_escapeChar, ih]
    rfl

/-! ## Numbers -/

/-- Characters that do not go on with a number that is in front of them. -/
def EndsNumber (rest : List Char) : Prop :=
  ∀ c ∈ rest.head?, c.isDigit = false ∧ c ≠ '.' ∧ c ≠ 'e' ∧ c ≠ 'E'

/-- Further digits make a number no smaller. -/
theorem le_ofDigitChars (ds : List Char) (m : Nat) : m ≤ Nat.ofDigitChars 10 ds m := by
  rw [Nat.ofDigitChars_eq_ofDigitChars_zero]
  have hpos : 1 ≤ 10 ^ ds.length := Nat.pow_pos (by decide)
  have := Nat.mul_le_mul_right m hpos
  omega

/-- Digits that spell a number of 64 bits are taken to the last. -/
theorem takeFitting_append {ds rest : List Char} {m : Nat} (hds : ∀ d ∈ ds, d.isDigit = true)
    (hfits : Nat.ofDigitChars 10 ds m < 0x10000000000000000)
    (hrest : ∀ c ∈ rest.head?, c.isDigit = false) :
    takeFitting m (ds ++ rest) = (Nat.ofDigitChars 10 ds m, ds.length, rest) := by
  induction ds generalizing m with
  | nil =>
    cases rest with
    | nil => rfl
    | cons c rest =>
      have hc : Decimal.digit? c = none := if_neg (by simp [hrest c rfl])
      simp [takeFitting, hc, Nat.ofDigitChars_nil]
  | cons d ds ih =>
    have hd : Decimal.digit? d = some (d.toNat - '0'.toNat) := if_pos (hds d List.mem_cons_self)
    have hspelled : Nat.ofDigitChars 10 (d :: ds) m =
        Nat.ofDigitChars 10 ds (m * 10 + (d.toNat - '0'.toNat)) := by
      rw [Nat.ofDigitChars_cons, Nat.mul_comm]
    rw [hspelled] at hfits ⊢
    have hlt := Nat.lt_of_le_of_lt (le_ofDigitChars _ _) hfits
    have hds := ih (fun c hc => hds c (List.mem_cons_of_mem _ hc)) hfits
    simp only [List.cons_append, takeFitting, hd, if_pos hlt, hds, List.length_cons]

theorem numeral_ne_nil (n : Nat) : Decimal.numeral n ≠ [] := Nat.toDigits_ne_nil

theorem isDigit_of_mem_numeral {n : Nat} {d : Char} (h : d ∈ Decimal.numeral n) :
    d.isDigit = true := Nat.isDigit_of_mem_toDigits (by decide) (by decide) h

/-- What a number begins with does not depend on what follows it. -/
theorem head?_numeral_append (n : Nat) (rest : List Char) :
    (Decimal.numeral n ++ rest).head? = (Decimal.numeral n).head? := by
  rw [List.head?_append, List.head?_eq_some_head (numeral_ne_nil n)]
  rfl

/-- No number but zero begins with the digit zero. -/
theorem head?_numeral_ne_zero {n : Nat} (h : 0 < n) : (Decimal.numeral n).head? ≠ some '0' := by
  induction n using Nat.strongRecOn with
  | _ n ih =>
    by_cases hlt : n < 10
    · have hall : ∀ n < 10, 0 < n → [Nat.digitChar n].head? ≠ some '0' := by decide
      rw [Decimal.numeral, Nat.toDigits_of_lt_base hlt]
      exact hall n hlt h
    · have hdigits : Decimal.numeral n = Decimal.numeral (n / 10) ++ [Nat.digitChar (n % 10)] :=
        Nat.toDigits_of_base_le (by decide) (Nat.le_of_not_lt hlt)
      rw [hdigits, head?_numeral_append]
      exact ih (n / 10) (by omega) (by omega)

/-- Where a number ends there is no exponent. -/
theorem readExponent_of_endsNumber {rest : List Char} (h : EndsNumber rest) :
    readExponent rest = some (none, rest) := by
  cases rest with
  | nil => rfl
  | cons c rest =>
    obtain ⟨_, _, he, hE⟩ := h c rfl
    simp [readExponent, he, hE]

/-- **A number is read to its last digit.** -/
theorem readUnsigned_numeral (negative : Bool) {n : Nat} {rest : List Char}
    (hn : n < 0x10000000000000000) (hrest : EndsNumber rest) :
    readUnsigned negative (Decimal.numeral n ++ rest) = some (whole negative n, rest) := by
  have htake : takeFitting 0 (Decimal.numeral n ++ rest) =
      (n, (Decimal.numeral n).length, rest) := by
    have hspelled : Nat.ofDigitChars 10 (Decimal.numeral n) 0 = n := Nat.ofDigitChars_ten_toDigits
    rw [takeFitting_append (fun _ => isDigit_of_mem_numeral) (by rwa [hspelled]) fun c hc =>
      (hrest c hc).1, hspelled]
  have hzero : ¬((Decimal.numeral n).length = 0 ∨
      (Decimal.numeral n ++ rest).head? = some '0' ∧ 1 < (Decimal.numeral n).length) := by
    rintro (hnil | ⟨hhead, hlong⟩)
    · exact numeral_ne_nil n (List.eq_nil_of_length_eq_zero hnil)
    · obtain rfl | hpos := Nat.eq_zero_or_pos n
      · exact absurd hlong (by decide)
      · rw [head?_numeral_append] at hhead
        exact head?_numeral_ne_zero hpos hhead
  have hdrop : rest.dropWhile Char.isDigit = rest ∧ rest.takeWhile Char.isDigit = [] := by
    cases rest with
    | nil => exact ⟨rfl, rfl⟩
    | cons c rest => simp [(hrest c rfl).1]
  unfold readUnsigned
  rw [htake]
  dsimp only
  rw [if_neg hzero, hdrop.1, hdrop.2]
  split
  · exact absurd rfl (hrest '.' rfl).2.1
  · rw [readExponent_of_endsNumber hrest]
    rfl

/-- The sign and the magnitude of an integer make up the integer. -/
theorem whole_natAbs (n : Int64) :
    whole (decide (n.toInt < 0)) n.toInt.natAbs = .int n := by
  have hle := Int64.le_toInt n
  have hlt := Int64.toInt_lt n
  unfold whole
  by_cases h : n.toInt < 0
  · have hcast : -(n.toInt.natAbs : Int) = n.toInt := by omega
    rw [decide_eq_true h, if_pos rfl, if_neg (by omega), hcast, Int64.ofInt_toInt]
  · rw [decide_eq_false h, if_neg Bool.false_ne_true, if_pos (by omega)]
    rw [← Int64.ofInt_eq_ofNat]
    have hcast : (n.toInt.natAbs : Int) = n.toInt := by omega
    rw [hcast, Int64.ofInt_toInt]

/-! ## Values that hold no values -/

/-- The values that JSON writes without looking into them, doubles
apart. -/
def Scalar : Value → Prop
  | .float _ | .array _ | .map _ => False
  | _ => True

/-- A text is read back from after its opening quotation mark. -/
theorem readText_writeText (s : String) (rest : List Char) :
    ∃ cs, writeText s ++ rest = '"' :: cs ∧ readText cs = some (s.toList, rest) := by
  refine ⟨s.toList.flatMap escapeChar ++ '"' :: rest, ?_, readText_flatMap_escapeChar _ _⟩
  simp [writeText]

/-- What begins with a digit is a number. -/
theorem readScalar_of_isDigit {c : Char} (h : c.isDigit = true) (cs : List Char) :
    readScalar (c :: cs) = readUnsigned false (c :: cs) := by
  unfold readScalar
  split
  case h_6 => rfl
  all_goals
    next heq =>
      obtain ⟨rfl, _⟩ := List.cons.inj heq
      exact absurd h (by decide)

/-- **An integer is read as it was written**, also the least one, whose
magnitude is no integer. -/
theorem readScalar_signed (n : Int64) {rest : List Char} (hrest : EndsNumber rest) :
    readScalar (Decimal.signed n.toInt ++ rest) = some (.int n, rest) := by
  have hle := Int64.le_toInt n
  have hlt := Int64.toInt_lt n
  have hfits : n.toInt.natAbs < 0x10000000000000000 := by omega
  have hwhole := whole_natAbs n
  unfold Decimal.signed
  by_cases h : n.toInt < 0
  · rw [decide_eq_true h] at hwhole
    rw [if_pos h, ← hwhole]
    exact readUnsigned_numeral true hfits hrest
  · rw [decide_eq_false h] at hwhole
    rw [if_neg h, ← hwhole, ← readUnsigned_numeral false hfits hrest]
    -- the reader tells a number without a sign by its first digit
    cases hdigits : Decimal.numeral n.toInt.natAbs with
    | nil => exact absurd hdigits (numeral_ne_nil _)
    | cons d ds =>
      have hd : d ∈ Decimal.numeral n.toInt.natAbs := hdigits ▸ List.mem_cons_self
      exact readScalar_of_isDigit (isDigit_of_mem_numeral hd) _

/-- **A scalar is read as it was written**, except that what JSON has no form
for is read as null. -/
theorem readScalar_write {v : Value} {rest : List Char} (h : Scalar v) (hrest : EndsNumber rest) :
    readScalar (write v ++ rest) = some (carried v, rest) := by
  cases v with
  | null => rfl
  | bool b => cases b <;> rfl
  | int n => exact readScalar_signed n hrest
  | float x => exact h.elim
  | str s =>
    obtain ⟨cs, hcs, hread⟩ := readText_writeText s rest
    show readScalar (writeText s ++ rest) = _
    rw [hcs]
    show (readText cs).map _ = _
    rw [hread, Option.map_some]
    dsimp only
    rw [String.ofList_toList]
    rfl
  | array items => exact h.elim
  | map entries => exact h.elim
  | iter items position => rfl
  | handler h => rfl

/-- A scalar begins with no blank, no bracket and no byte order mark. -/
theorem exists_cons_of_readScalar {cs : List Char} {r : Value × List Char}
    (h : readScalar cs = some r) :
    ∃ c tail, cs = c :: tail ∧ isBlank c = false ∧ c ≠ '[' ∧ c ≠ '{' ∧ c ≠ ']' ∧
      c ≠ Text.byteOrderMark := by
  cases cs with
  | nil => cases h
  | cons c tail =>
    have hnone : c ∉ [' ', '\t', '\n', '\r', '[', '{', ']', Text.byteOrderMark] := by
      intro hmem
      simp only [List.mem_cons, List.not_mem_nil, or_false] at hmem
      obtain rfl | rfl | rfl | rfl | rfl | rfl | rfl | rfl := hmem
      all_goals cases h
    simp only [List.mem_cons, List.not_mem_nil, or_false, not_or] at hnone
    obtain ⟨hspace, htab, hfeed, hreturn, harray, hmap, hclose, hmark⟩ := hnone
    exact ⟨c, tail, rfl, by simp [isBlank, hspace, htab, hfeed, hreturn], harray, hmap, hclose,
      hmark⟩

theorem skipBlanks_cons {c : Char} (h : isBlank c = false) (cs : List Char) :
    skipBlanks (c :: cs) = c :: cs := by
  simp [skipBlanks, h]

/-- Where no array and no map begins, a scalar is read at every level. -/
theorem readValue_of_readScalar {cs : List Char} {r : Value × List Char}
    (h : readScalar cs = some r) (bound levels : Nat) : readValue bound levels cs = some r := by
  obtain ⟨c, tail, rfl, hblank, harray, hmap, _⟩ := exists_cons_of_readScalar h
  cases levels with
  | zero => rw [readValue, skipBlanks_cons hblank, h]
  | succ levels =>
    rw [readValue, skipBlanks_cons hblank]
    split
    · next heq => exact absurd (List.cons.inj heq).1 harray
    · next heq => exact absurd (List.cons.inj heq).1 hmap
    · exact h

/-! ## Arrays and maps -/

/-- **Values without doubles, nested so many levels deep.** What an
iterator runs through is not looked at, as JSON does not look at it; the
keys of a map ascend, as those of every dictionary do. -/
inductive Plain : Nat → Value → Prop where
  | scalar {levels : Nat} {v : Value} (h : Scalar v) : Plain levels v
  | array {levels : Nat} {items : List Value} (h : ∀ v ∈ items, Plain levels v) :
      Plain (levels + 1) (.array items)
  | map {levels : Nat} {entries : Dict Value} (hkeys : entries.Ascending)
      (h : ∀ entry ∈ entries, Plain levels entry.2) : Plain (levels + 1) (.map entries)

/-- How a value begins: with no blank and no byte order mark, and not as an
array ends. -/
theorem exists_cons_write {levels : Nat} {v : Value} (h : Plain levels v) :
    ∃ c tail, write v = c :: tail ∧ isBlank c = false ∧ c ≠ ']' ∧ c ≠ Text.byteOrderMark := by
  cases h with
  | scalar h =>
    have hread := readScalar_write h (nofun : EndsNumber [])
    obtain ⟨c, tail, hcs, hblank, _, _, hends⟩ := exists_cons_of_readScalar hread
    exact ⟨c, tail, (List.append_nil _).symm.trans hcs, hblank, hends⟩
  | array h => exact ⟨'[', _, rfl, rfl, by decide⟩
  | map hkeys h => exact ⟨'{', _, rfl, rfl, by decide⟩

/-- No written value begins with a byte order mark. -/
theorem dropMarks_text {levels : Nat} {v : Value} (h : Plain levels v) :
    Text.dropMarks (text v) = text v := by
  obtain ⟨c, tail, hcs, _, _, hmark⟩ := exists_cons_write h
  refine Text.dropMarks_eq_self fun d hd => ?_
  rw [text, String.toList_ofList, hcs] at hd
  obtain rfl : c = d := Option.some.inj hd
  exact hmark

/-- **A reader gives a value back** from its written form, whatever stands
after it that does not go on with a number. -/
def Inverts (item : List Char → Option (Value × List Char)) (v : Value) : Prop :=
  ∀ rest, EndsNumber rest → item (write v ++ rest) = some (carried v, rest)

/-- What may stand after a value inside an array or a map. -/
theorem EndsNumber.cons {c : Char} (h : c = ',' ∨ c = ']' ∨ c = '}') (rest : List Char) :
    EndsNumber (c :: rest) := by
  rintro d hd
  obtain rfl : c = d := Option.some.inj hd
  obtain rfl | rfl | rfl := h <;> decide

/-- The written form of items is no shorter than any of them, nor than
their number. -/
theorem length_writeItems (items : List Value) :
    items.length ≤ (writeItems items).length ∧
      ∀ v ∈ items, (write v).length ≤ (writeItems items).length := by
  induction items with
  | nil => simp
  | cons v rest ih =>
    cases rest with
    | nil => simp [writeItems]
    | cons w rest =>
      obtain ⟨hcount, hitems⟩ := ih
      have hcons : (writeItems (v :: w :: rest)).length =
          (write v).length + ((writeItems (w :: rest)).length + 1) := by
        simp [writeItems]
      rw [hcons]
      refine ⟨Nat.le_trans (Nat.succ_le_succ hcount) (Nat.le_add_left _ _), fun u hu => ?_⟩
      obtain rfl | hu := List.mem_cons.1 hu
      · exact Nat.le_add_right _ _
      · exact Nat.le_trans (hitems u hu) (by omega)

/-- **The items of an array are read back.** -/
theorem readItems_writeItems {item : List Char → Option (Value × List Char)} {v : Value}
    {items : List Value} (h : ∀ w ∈ v :: items, Inverts item w) {bound : Nat}
    (hbound : items.length < bound) (rest : List Char) :
    readItems item bound (writeItems (v :: items) ++ rest) =
      some (carriedItems (v :: items), rest) := by
  induction items generalizing v bound with
  | nil =>
    obtain ⟨bound, rfl⟩ : ∃ n, bound = n + 1 := ⟨bound - 1, by omega⟩
    have hv := h v List.mem_cons_self (']' :: rest) (.cons (by decide) rest)
    simp only [writeItems, List.append_assoc, List.singleton_append, readItems, hv]
    rfl
  | cons w items ih =>
    obtain ⟨bound, rfl⟩ : ∃ n, bound = n + 1 := ⟨bound - 1, by omega⟩
    have hv := h v List.mem_cons_self (',' :: (writeItems (w :: items) ++ rest))
      (.cons (by decide) _)
    have hrest : items.length < bound := Nat.lt_of_succ_lt_succ hbound
    have hw := ih (fun u hu => h u (List.mem_cons_of_mem _ hu)) hrest
    simp only [writeItems, List.append_assoc, List.cons_append, readItems, hv]
    show (readItems item bound (writeItems (w :: items) ++ rest)).map _ = _
    rw [hw]
    rfl

/-- A member is read back with its key. -/
theorem readMember_write {item : List Char → Option (Value × List Char)} {v : Value}
    (h : Inverts item v) (key : String) {rest : List Char} (hrest : EndsNumber rest) :
    readMember item (writeText key ++ ':' :: (write v ++ rest)) =
      some ((key, carried v), rest) := by
  obtain ⟨cs, hcs, hread⟩ := readText_writeText key (':' :: (write v ++ rest))
  have hcolon := skipBlanks_cons (by decide : isBlank ':' = false) (write v ++ rest)
  unfold readMember
  rw [hcs, skipBlanks_cons rfl]
  simp only [hread, hcolon, h rest hrest, String.ofList_toList, Option.map_some]

/-- **The members of a map are read back.** -/
theorem readMembers_writeMembers {item : List Char → Option (Value × List Char)}
    {member : String × Value} {members : List (String × Value)}
    (h : ∀ other ∈ member :: members, Inverts item other.2) {bound : Nat}
    (hbound : members.length < bound) (rest : List Char) :
    readMembers item bound (writeMembers (member :: members) ++ rest) =
      some (carriedMembers (member :: members), rest) := by
  induction members generalizing member bound with
  | nil =>
    obtain ⟨bound, rfl⟩ : ∃ n, bound = n + 1 := ⟨bound - 1, by omega⟩
    have hmember := readMember_write (h member List.mem_cons_self) member.1
      (EndsNumber.cons (by decide) rest : EndsNumber ('}' :: rest))
    simp only [writeMembers, List.append_assoc, List.cons_append, List.nil_append, readMembers,
      hmember]
    rfl
  | cons other members ih =>
    obtain ⟨bound, rfl⟩ : ∃ n, bound = n + 1 := ⟨bound - 1, by omega⟩
    have hmember := readMember_write (h member List.mem_cons_self) member.1
      (EndsNumber.cons (by decide) _ :
        EndsNumber (',' :: (writeMembers (other :: members) ++ rest)))
    have hrest : members.length < bound := Nat.lt_of_succ_lt_succ hbound
    have hothers := ih (fun m hm => h m (List.mem_cons_of_mem _ hm)) hrest
    simp only [writeMembers, List.append_assoc, List.cons_append, readMembers, hmember]
    show (readMembers item bound (writeMembers (other :: members) ++ rest)).map _ = _
    rw [hothers]
    rfl

/-- The same holds of members. -/
theorem length_writeMembers (entries : List (String × Value)) :
    entries.length ≤ (writeMembers entries).length ∧
      ∀ entry ∈ entries, (write entry.2).length ≤ (writeMembers entries).length := by
  induction entries with
  | nil => simp
  | cons entry rest ih =>
    cases rest with
    | nil =>
      simp [writeMembers]
      omega
    | cons other rest =>
      obtain ⟨hcount, hentries⟩ := ih
      have hcons : (writeMembers (entry :: other :: rest)).length = (writeText entry.1).length + 1 +
          (write entry.2).length + ((writeMembers (other :: rest)).length + 1) := by
        simp [writeMembers]
        omega
      rw [hcons]
      refine ⟨Nat.le_trans (Nat.succ_le_succ hcount) (Nat.le_add_left _ _), fun e he => ?_⟩
      obtain rfl | he := List.mem_cons.1 he
      · omega
      · exact Nat.le_trans (hentries e he) (by omega)

/-- What is carried of a map has the same keys. -/
theorem ascending_carriedMembers {entries : Dict Value} (h : entries.Ascending) :
    Dict.Ascending (carriedMembers entries) := by
  have hmap : carriedMembers entries = entries.map fun entry => (entry.1, carried entry.2) := by
    clear h
    induction entries with
    | nil => rfl
    | cons entry rest ih => rw [carriedMembers, ih]; rfl
  rw [hmap]
  exact List.pairwise_map.2 h

/-- An array that does not end at once has items. -/
theorem readValue_array {c : Char} (hblank : isBlank c = false) (hclose : c ≠ ']')
    (bound levels : Nat) (cs : List Char) :
    readValue bound (levels + 1) ('[' :: c :: cs) =
      (readItems (readValue bound levels) bound (c :: cs)).map fun (vs, rest) =>
        (.array vs, rest) := by
  have hbracket : skipBlanks ('[' :: c :: cs) = '[' :: c :: cs := rfl
  simp only [readValue, hbracket, skipBlanks_cons hblank]
  split
  · next heq => exact absurd (List.cons.inj heq).1 hclose
  · rfl

/-- A map that does not end at once has members. -/
theorem readValue_map (bound levels : Nat) (cs : List Char) :
    readValue bound (levels + 1) ('{' :: '"' :: cs) =
      (readMembers (readValue bound levels) bound ('"' :: cs)).map fun (ms, rest) =>
        (.map (Dict.ofList ms), rest) := rfl

/-- **A value is read back as it was written**, whatever stands after it. -/
theorem inverts_readValue {levels : Nat} {v : Value} (h : Plain levels v) {bound : Nat}
    (hbound : (write v).length ≤ bound) : Inverts (readValue bound levels) v := by
  induction h with
  | scalar h =>
    intro rest hrest
    exact readValue_of_readScalar (readScalar_write h hrest) bound _
  | @array levels items h ih =>
    intro rest hrest
    cases items with
    | nil => rfl
    | cons v items =>
      obtain ⟨hcount, hlength⟩ := length_writeItems (v :: items)
      have hle : (writeItems (v :: items)).length ≤ bound := Nat.le_of_succ_le hbound
      have hitems : ∀ w ∈ v :: items, Inverts (readValue bound levels) w := fun w hw =>
        ih w hw (Nat.le_trans (hlength w hw) hle)
      have hread := readItems_writeItems hitems (Nat.le_trans hcount hle) rest
      show readValue bound (levels + 1) ('[' :: (writeItems (v :: items) ++ rest)) = _
      obtain ⟨c, tail, hcs, hblank, hclose⟩ : ∃ c tail,
          writeItems (v :: items) ++ rest = c :: tail ∧ isBlank c = false ∧ c ≠ ']' := by
        obtain ⟨c, tail, hv, hblank, hclose, _⟩ := exists_cons_write (h v List.mem_cons_self)
        cases items with
        | nil => exact ⟨c, _, congrArg (· ++ [']'] ++ rest) hv, hblank, hclose⟩
        | cons w items =>
          exact ⟨c, _, congrArg (· ++ ',' :: writeItems (w :: items) ++ rest) hv, hblank, hclose⟩
      rw [hcs] at hread ⊢
      rw [readValue_array hblank hclose, hread]
      rfl
  | @map levels entries hkeys h ih =>
    intro rest hrest
    cases entries with
    | nil => rfl
    | cons entry entries =>
      obtain ⟨hcount, hlength⟩ := length_writeMembers (entry :: entries)
      have hle : (writeMembers (entry :: entries)).length ≤ bound := Nat.le_of_succ_le hbound
      have hentries : ∀ other ∈ entry :: entries, Inverts (readValue bound levels) other.2 :=
        fun other hmem => ih other hmem (Nat.le_trans (hlength other hmem) hle)
      have hread := readMembers_writeMembers hentries (Nat.le_trans hcount hle) rest
      show readValue bound (levels + 1) ('{' :: (writeMembers (entry :: entries) ++ rest)) = _
      obtain ⟨tail, hcs⟩ : ∃ tail, writeMembers (entry :: entries) ++ rest = '"' :: tail := by
        cases entries <;> exact ⟨_, rfl⟩
      rw [hcs] at hread ⊢
      rw [readValue_map, hread, Option.map_some]
      dsimp only
      rw [Dict.ofList_of_ascending (ascending_carriedMembers hkeys)]
      rfl

/-- **The text of a value spells the value**, as far as JSON carries it. -/
theorem parse?_text {v : Value} (h : Plain maxLevels v) : parse? (text v) = some (carried v) := by
  have hread := inverts_readValue h (Nat.le_refl _) [] nofun
  rw [List.append_nil] at hread
  unfold parse? text
  rw [String.length_ofList, String.toList_ofList, hread]
  rfl

end TagScript.Json
