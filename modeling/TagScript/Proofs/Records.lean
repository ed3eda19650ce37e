import TagScript.Table.Record

/-!
# Records are read as they were written

Whatever characters the fields hold, and whatever the records end with, a
reader that stands before a written record takes exactly that record off
the text and stands before the next one. A text that was made by adding
records at its end therefore reads as those records, in their order:
`Table.Spells` is kept by every addition.

Between two records the reader passes over line ends, which is why the
second character of an ending of two is no record, and why a record of one
empty field must not be written as nothing at all.
-/

namespace TagScript.Table

namespace Reading

variable {r : Reading} {s : String} {cs rest : List Char} {c : Char}

/-! ## One field -/

/-- **Wherever outside quotation marks the reader stands**, it takes a
character that is no quotation mark in the same way. -/
theorem records_outside {mode : Mode} (hmode : mode = .fieldStart ∨ mode = .quoteSeen)
    (hc : c ≠ '"') (field : List Char) (fields : List String) (rest : List Char) :
    records ⟨mode, field, fields⟩ (c :: rest) = records ⟨.plain, field, fields⟩ (c :: rest) := by
  have hstep : step ⟨mode, field, fields⟩ c = step ⟨.plain, field, fields⟩ c := by
    obtain rfl | rfl := hmode
    · exact if_neg hc
    · exact if_neg hc
  rw [records, records, hstep]

/-- Before a record the reader differs from one before a field at line ends
only. -/
theorem records_initial (hc : isLineEnd c = false) (rest : List Char) :
    initial.records (c :: rest) = records ⟨.fieldStart, [], []⟩ (c :: rest) := by
  have hstep : step initial c = step ⟨.fieldStart, [], []⟩ c := if_neg (by simp [hc])
  rw [records, records, hstep]

/-- Between quotation marks everything is taken up to the closing one. -/
theorem records_quoted (fields : List String) (field cs rest : List Char) :
    records ⟨.quoted, field, fields⟩
        (cs.flatMap (fun c => if c = '"' then ['"', '"'] else [c]) ++ '"' :: rest) =
      records ⟨.quoteSeen, cs.reverse ++ field, fields⟩ rest := by
  induction cs generalizing field with
  | nil => rfl
  | cons c cs ih =>
    rw [List.reverse_cons, List.append_assoc, List.singleton_append, ← ih (c :: field),
      List.flatMap_cons, List.append_assoc]
    by_cases hc : c = '"'
    · rw [if_pos hc, hc]
      rfl
    · rw [if_neg hc]
      simp [records, step, take, hc]

/-- Characters that need no quotation marks are taken as they are. -/
theorem records_plain (h : ∀ c ∈ cs, needsQuotes c = false) (field : List Char) (fields : List String)
    (rest : List Char) :
    records ⟨.plain, field, fields⟩ (cs ++ rest) =
      records ⟨.plain, cs.reverse ++ field, fields⟩ rest := by
  induction cs generalizing field with
  | nil => rfl
  | cons c cs ih =>
    rw [List.reverse_cons, List.append_assoc, List.singleton_append,
      ← ih (fun d hd => h d (List.mem_cons_of_mem _ hd)) (c :: field)]
    have hc := h c List.mem_cons_self
    simp only [needsQuotes, Bool.or_eq_false_iff, beq_eq_false_iff_ne] at hc
    obtain ⟨⟨⟨hcomma, hquote⟩, hreturn⟩, hfeed⟩ := hc
    simp [records, step, outside, isLineEnd, take, hcomma, hreturn, hfeed]

/-- **A field is read as it was written**, and what follows it is no
quotation mark. -/
theorem records_writeField (s : String) (hc : c ≠ '"') (fields : List String)
    (rest : List Char) :
    records ⟨.fieldStart, [], fields⟩ (writeField s ++ c :: rest) =
      records ⟨.plain, s.toList.reverse, fields⟩ (c :: rest) := by
  unfold writeField
  by_cases hquotes : s.toList.any needsQuotes = true
  · have hquoted := records_quoted fields [] s.toList (c :: rest)
    rw [List.append_nil, records_outside (.inr rfl) hc] at hquoted
    rw [if_pos hquotes, ← hquoted, List.append_assoc]
    rfl
  · rw [if_neg hquotes]
    have hplain : ∀ d ∈ s.toList, needsQuotes d = false := by
      simpa [List.any_eq_true] using hquotes
    have htaken := records_plain hplain [] fields (c :: rest)
    rw [List.append_nil] at htaken
    rw [← htaken]
    cases hs : s.toList with
    | nil => exact records_outside (.inl rfl) hc _ _ _
    | cons d cs =>
      have hd : d ≠ '"' := by
        rintro rfl
        exact absurd (hplain '"' (hs ▸ List.mem_cons_self)) (by decide)
      exact records_outside (.inl rfl) hd _ _ _

/-! ## One record -/

theorem writeFields_cons_cons (field next : String) (more : List String) :
    writeFields (field :: next :: more) = writeField field ++ ',' :: writeFields (next :: more) := rfl

/-- **The fields of a record are read as they were written**, up to the line
end. -/
theorem records_writeFields (field : String) (more : List String) (hc : c = '\n' ∨ c = '\r')
    (fields : List String) (rest : List Char) :
    records ⟨.fieldStart, [], fields⟩ (writeFields (field :: more) ++ c :: rest) =
      (fields.reverse ++ field :: more) :: initial.records rest := by
  induction more generalizing field fields with
  | nil =>
    have hquote : c ≠ '"' := by
      obtain rfl | rfl := hc
      · decide
      · decide
    have hrecord : record ⟨.plain, field.toList.reverse, fields⟩ = fields.reverse ++ [field] := by
      simp [record]
    rw [writeFields, records_writeField field hquote, ← hrecord]
    obtain rfl | rfl := hc
    · rfl
    · rfl
  | cons next more ih =>
    have hcomma : comma ⟨.plain, field.toList.reverse, fields⟩ =
        ⟨.fieldStart, [], field :: fields⟩ := by
      simp [comma]
    rw [writeFields_cons_cons, List.append_assoc, List.cons_append,
      records_writeField field (by decide)]
    show records (comma ⟨.plain, field.toList.reverse, fields⟩) _ = _
    rw [hcomma, ih next (field :: fields)]
    simp

end Reading

/-- How a written field begins: with a quotation mark, or as its text does. -/
theorem head_writeField {s : String} {c : Char} (h : c ∈ (writeField s).head?) :
    c = '"' ∨ c ∈ s.toList.head? ∧ needsQuotes c = false := by
  unfold writeField at h
  split at h
  · exact .inl (Option.some.inj h).symm
  · next hquotes =>
    have hplain : ∀ d ∈ s.toList, needsQuotes d = false := by
      simpa [List.any_eq_true] using hquotes
    exact .inr ⟨h, hplain c (List.mem_of_mem_head? h)⟩

/-- How written fields begin. -/
theorem head_writeFields {field : String} {more : List String} {c : Char}
    (h : c ∈ (writeFields (field :: more)).head?) :
    c = '"' ∨ c = ',' ∨ c ∈ field.toList.head? ∧ needsQuotes c = false := by
  cases more with
  | nil => exact (head_writeField h).imp_right .inr
  | cons next more =>
    rw [Reading.writeFields_cons_cons, List.head?_append] at h
    cases hfield : (writeField field).head? with
    | some d =>
      rw [hfield] at h
      obtain rfl : d = c := Option.some.inj h
      exact (head_writeField hfield).imp_right .inr
    | none =>
      rw [hfield] at h
      exact .inr (.inl (Option.some.inj h).symm)

/-- **How a written record begins**: with no line end, and with a byte order
mark only if its first field does. -/
theorem head_writeRecord {field : String} {more : List String} {ending : Ending} {c : Char}
    (h : c ∈ (writeRecord ending (field :: more)).head?) :
    isLineEnd c = false ∧ (c = Text.byteOrderMark → c ∈ field.toList.head?) := by
  have hbegin : c = '"' ∨ c = ',' ∨ c ∈ field.toList.head? ∧ needsQuotes c = false := by
    unfold writeRecord at h
    dsimp only at h
    cases hfields : writeFields (field :: more) with
    | nil =>
      rw [hfields] at h
      exact .inl (Option.some.inj h).symm
    | cons d cs =>
      rw [hfields] at h
      obtain rfl : d = c := Option.some.inj h
      have hhead : d ∈ (writeFields (field :: more)).head? := by
        rw [hfields]
        rfl
      exact head_writeFields hhead
  obtain rfl | rfl | ⟨hmem, hquotes⟩ := hbegin
  · exact ⟨rfl, fun h => absurd h (by decide)⟩
  · exact ⟨rfl, fun h => absurd h (by decide)⟩
  · refine ⟨?_, fun _ => hmem⟩
    simp only [needsQuotes, Bool.or_eq_false_iff, beq_eq_false_iff_ne] at hquotes
    simp [isLineEnd, hquotes.1.2, hquotes.2]

/-- What ends a record is a line end, and the rest of an ending of two is
passed over. -/
theorem exists_lineEnd (ending : Ending) (rest : List Char) :
    ∃ c tail, (c = '\n' ∨ c = '\r') ∧ ending.chars ++ rest = c :: tail ∧
      Reading.initial.records tail = Reading.initial.records rest := by
  cases ending with
  | crlf => exact ⟨'\r', '\n' :: rest, .inr rfl, rfl, rfl⟩
  | lf => exact ⟨'\n', rest, .inl rfl, rfl, rfl⟩
  | cr => exact ⟨'\r', rest, .inr rfl, rfl, rfl⟩

/-- **A written record is read as it was written**, and the reader then stands
before the next one. -/
theorem records_writeRecord (ending : Ending) {record : Record} (h : record ≠ [])
    (rest : List Char) :
    Reading.initial.records (writeRecord ending record ++ rest) =
      record :: Reading.initial.records rest := by
  obtain ⟨field, more, rfl⟩ := List.exists_cons_of_ne_nil h
  obtain ⟨e, tail, he, hchars, htail⟩ := exists_lineEnd ending rest
  have hfields := Reading.records_writeFields field more he [] tail
  rw [htail] at hfields
  unfold writeRecord
  dsimp only
  rw [List.append_assoc, hchars]
  cases hwritten : writeFields (field :: more) with
  | nil =>
    -- nothing is written for the fields, and the quotation marks stand for it
    have hquote : e ≠ '"' := by
      obtain rfl | rfl := he
      · decide
      · decide
    rw [hwritten, List.nil_append, Reading.records_outside (.inl rfl) hquote] at hfields
    have hseen := Reading.records_outside (.inr rfl) hquote [] [] tail
    exact hseen.trans hfields
  | cons c cs =>
    have hbegin : isLineEnd c = false := by
      refine (@head_writeRecord field more ending c ?_).1
      unfold writeRecord
      rw [hwritten]
      rfl
    rw [hwritten] at hfields
    exact (Reading.records_initial hbegin _).trans hfields

/-! ## Texts that records are added to -/

/-- **A text that spells some records**: whatever is added to it, it is read
as these records and then as what was added. -/
structure Spells (text : String) (rs : List Record) : Prop where
  /-- It is read so. -/
  reads (rest : List Char) :
    Reading.initial.records (text.toList ++ rest) = rs ++ Reading.initial.records rest
  /-- It does not begin with a byte order mark. -/
  unmarked : ∀ c ∈ text.toList.head?, c ≠ Text.byteOrderMark
  /-- It is empty only if there are no records. -/
  isEmpty_iff : text.isEmpty = true ↔ rs = []

theorem Spells.empty : Spells "" [] where
  reads _ := rfl
  unmarked := nofun
  isEmpty_iff := by decide

theorem Spells.records {text : String} {rs : List Record} (h : Spells text rs) :
    records text = rs := by
  have hreads := h.reads []
  rw [List.append_nil] at hreads
  rw [Table.records, hreads]
  exact List.append_nil rs

theorem writeRecords_cons (ending : Ending) (record : Record) (rs : List Record) :
    writeRecords ending (record :: rs) =
      String.ofList (writeRecord ending record) ++ writeRecords ending rs := by
  rw [writeRecords, List.flatMap_cons, String.ofList_append]
  rfl

theorem writeRecord_ne_nil (ending : Ending) (record : Record) : writeRecord ending record ≠ [] := by
  cases ending <;> simp [writeRecord, Ending.chars]

/-- Adding a written record adds the record, if the first record of all does
not begin with a byte order mark. -/
theorem Spells.add {text : String} {rs : List Record} (h : Spells text rs) (ending : Ending)
    (field : String) (more : List String)
    (hmark : rs = [] → ∀ c ∈ field.toList.head?, c ≠ Text.byteOrderMark) :
    Spells (text ++ String.ofList (writeRecord ending (field :: more))) (rs ++ [field :: more]) where
  reads rest := by
    rw [String.toList_append, String.toList_ofList, List.append_assoc, h.reads,
      records_writeRecord ending (List.cons_ne_nil _ _), List.append_assoc]
    rfl
  unmarked c hc := by
    rw [String.toList_append, String.toList_ofList] at hc
    cases htext : text.toList with
    | nil =>
      rw [htext, List.nil_append] at hc
      have hnone : rs = [] := h.isEmpty_iff.1 (by simpa [String.isEmpty_iff] using htext)
      exact fun heq => hmark hnone c ((head_writeRecord hc).2 heq) heq
    | cons d cs =>
      rw [htext] at hc
      exact h.unmarked c (by rw [htext]; exact hc)
  isEmpty_iff := by
    have htext : text ++ String.ofList (writeRecord ending (field :: more)) ≠ "" := by
      intro hempty
      have hchars := congrArg String.toList hempty
      rw [String.toList_append, String.toList_ofList] at hchars
      exact writeRecord_ne_nil ending _ (List.append_eq_nil_iff.1 hchars).2
    simp [String.isEmpty_iff, htext]

/-- **Adding written records adds the records.** -/
theorem Spells.addAll {text : String} {rs new : List Record} (h : Spells text rs) (ending : Ending)
    (hfields : ∀ record ∈ new, record ≠ [])
    (hmark : rs = [] → ∀ record ∈ new.head?, ∀ field ∈ record.head?,
      ∀ c ∈ field.toList.head?, c ≠ Text.byteOrderMark) :
    Spells (text ++ writeRecords ending new) (rs ++ new) := by
  induction new generalizing text rs with
  | nil =>
    have hnothing : text ++ writeRecords ending [] = text := String.append_empty
    rw [hnothing, List.append_nil]
    exact h
  | cons record new ih =>
    obtain ⟨field, more, rfl⟩ := List.exists_cons_of_ne_nil (hfields record List.mem_cons_self)
    have hadded := h.add ending field more fun hnone => hmark hnone _ rfl _ rfl
    have hall := ih hadded (fun r hr => hfields r (List.mem_cons_of_mem _ hr)) fun hnone =>
      absurd hnone (List.append_ne_nil_of_right_ne_nil _ (List.cons_ne_nil _ _))
    rw [String.append_assoc, ← writeRecords_cons, List.append_assoc, List.singleton_append] at hall
    exact hall

end TagScript.Table
