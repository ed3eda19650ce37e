import TagScript.Proofs.Counting

/-!
# The numbers of the rows and the count of the lines

A tag that goes over the rows of a file tells the tags inside it how many
lines the file has after the first, and which row is at hand. A script that
tells how far it has got divides the one by the other, so no row shall have
a number above the count.

The two do not come from the same reading. The lines are told apart by line
feeds alone. The records are told apart by line feeds and carriage returns,
but not inside quotation marks, and where several of these stand side by
side there is no record between them; and not all records are rows. All of
this makes for more lines than rows, but for one thing: a carriage return
that stands alone ends a record and no line (`carriageReturns_exceed_count`).
So the number of a row is at most the count and as many more as there are
such carriage returns in the file.
-/

namespace TagScript

namespace Table

/-! ## Lines -/

/-- How many lines some characters have. -/
def linesOf : List Char → Nat
  | [] => 0
  | c :: rest => if c = '\n' then linesOf rest + 1 else max 1 (linesOf rest)

/-- **Lines are counted from the front**: a line feed ends one more, and any other character is in
the first of those that follow, or in one of its own at the end. -/
theorem lineCount_eq (s : String) : lineCount s = linesOf s.toList := by
  unfold lineCount
  dsimp only
  induction s.toList with
  | nil => rfl
  | cons c rest ih =>
    obtain ⟨piece, pieces, hpieces⟩ :=
      List.exists_cons_of_ne_nil (Text.splitChars_ne_nil '\n' rest)
    rw [hpieces] at ih
    rw [linesOf, ← ih]
    by_cases hc : c = '\n'
    · rw [Text.splitChars, if_pos hc, hpieces, if_pos hc, List.getLast?_cons_cons]
      split
      · rfl
      · rfl
    · rw [Text.splitChars, if_neg hc, hpieces, if_neg hc]
      cases pieces with
      | nil =>
        rw [if_neg (by simp), List.length_singleton]
        split
        · rfl
        · rfl
      | cons next more =>
        rw [List.getLast?_cons_cons, List.getLast?_cons_cons]
        simp only [List.length_cons]
        split
        · omega
        · omega

theorem linesOf_le_length (cs : List Char) : linesOf cs ≤ cs.length := by
  induction cs with
  | nil => exact Nat.le_refl _
  | cons c rest ih =>
    rw [linesOf, List.length_cons]
    split
    · exact Nat.succ_le_succ ih
    · exact Nat.max_le.2 ⟨Nat.le_add_left _ _, Nat.le_succ_of_le ih⟩

/-- The lines of a text are no more than its characters. -/
theorem lineCount_le_length (s : String) : lineCount s ≤ s.length := by
  rw [lineCount_eq, ← String.length_toList]
  exact linesOf_le_length s.toList

theorem le_linesOf_cons (c : Char) (rest : List Char) :
    max 1 (linesOf rest) ≤ linesOf (c :: rest) := by
  rw [linesOf]
  split
  · omega
  · exact Nat.le_refl _

/-! ## Records -/

theorem eq_or_eq_of_isLineEnd {c : Char} (h : isLineEnd c = true) : c = '\n' ∨ c = '\r' := by
  simpa [isLineEnd] using h

namespace Reading

/-- **What a character does to the reader**: it is passed over, or taken into a record, or ends
one. -/
theorem step_cases (r : Reading) (c : Char) :
    (r.mode = .between ∧ isLineEnd c = true ∧ r.step c = (none, r)) ∨
      (∃ t, r.step c = (none, t) ∧ t.mode ≠ .between ∧
        (r.mode = .between → isLineEnd c = false)) ∨
      r.mode ≠ .between ∧ isLineEnd c = true ∧ r.step c = (some r.record, .initial) := by
  have houtside : (∃ t, r.outside c = (none, t) ∧ t.mode ≠ .between) ∨
      isLineEnd c = true ∧ r.outside c = (some r.record, .initial) := by
    unfold outside
    split
    · exact .inl ⟨_, rfl, nofun⟩
    · split
      · next hend => exact .inr ⟨hend, rfl⟩
      · exact .inl ⟨_, rfl, nofun⟩
  unfold step
  cases hmode : r.mode with
  | between =>
    cases hend : isLineEnd c with
    | true => exact .inl ⟨rfl, rfl, rfl⟩
    | false =>
      refine .inr (.inl ?_)
      dsimp only
      rw [if_neg Bool.false_ne_true]
      split
      · exact ⟨_, rfl, nofun, fun _ => rfl⟩
      · obtain ⟨t, ht, hinside⟩ | ⟨hend', -⟩ := houtside
        · exact ⟨t, ht, hinside, fun _ => rfl⟩
        · cases hend.symm.trans hend'
  | plain =>
    obtain ⟨t, ht, hinside⟩ | ⟨hend, ht⟩ := houtside
    · exact .inr (.inl ⟨t, ht, hinside, nofun⟩)
    · exact .inr (.inr ⟨nofun, hend, ht⟩)
  | quoted =>
    dsimp only
    split
    · exact .inr (.inl ⟨_, rfl, nofun, nofun⟩)
    · exact .inr (.inl ⟨_, rfl, nofun, nofun⟩)
  | fieldStart | quoteSeen =>
    dsimp only
    split
    · exact .inr (.inl ⟨_, rfl, nofun, nofun⟩)
    · obtain ⟨t, ht, hinside⟩ | ⟨hend, ht⟩ := houtside
      · exact .inr (.inl ⟨t, ht, hinside, nofun⟩)
      · exact .inr (.inr ⟨nofun, hend, ht⟩)

/-- Whether a carriage return stands alone before some characters: they go on, and not with a line
feed. -/
def isLone : List Char → Bool
  | [] => false
  | c :: _ => c != '\n'

/-- How many carriage returns end a record and stand alone. -/
def loneReturns : Reading → List Char → Nat
  | _, [] => 0
  | r, c :: rest =>
    match r.step c with
    | (some _, r) => (if c = '\r' ∧ isLone rest = true then 1 else 0) + r.loneReturns rest
    | (none, r) => r.loneReturns rest

theorem loneReturns_of_none {r t : Reading} {c : Char} (h : r.step c = (none, t))
    (rest : List Char) : r.loneReturns (c :: rest) = t.loneReturns rest := by
  rw [loneReturns, h]

theorem loneReturns_of_some {r t : Reading} {c : Char} {record : Record}
    (h : r.step c = (some record, t)) (rest : List Char) :
    r.loneReturns (c :: rest) =
      (if c = '\r' ∧ isLone rest = true then 1 else 0) + t.loneReturns rest := by
  rw [loneReturns, h]

theorem records_of_none {r t : Reading} {c : Char} (h : r.step c = (none, t)) (rest : List Char) :
    r.records (c :: rest) = t.records rest := by
  rw [records, h]

theorem records_of_some {r t : Reading} {c : Char} {record : Record}
    (h : r.step c = (some record, t)) (rest : List Char) :
    r.records (c :: rest) = record :: t.records rest := by
  rw [records, h]

/-- **There is a line for every record, or a carriage return that stands alone.** A reader inside a
record is in a line already, and one between records before a line feed is at the end of one. -/
theorem length_records_le (r : Reading) (cs : List Char) :
    (r.mode = .between → (r.records cs).length + (if cs.head? = some '\n' then 1 else 0) ≤
        linesOf cs + r.loneReturns cs) ∧
      (r.mode ≠ .between → (r.records cs).length ≤ max 1 (linesOf cs) + r.loneReturns cs) := by
  induction cs generalizing r with
  | nil =>
    constructor
    · intro hmode
      simp [records, hmode]
    · intro hmode
      simp [records, hmode, linesOf]
  | cons c rest ih =>
    obtain ⟨hmode, hend, hstep⟩ | ⟨t, hstep, hinside, hbetween⟩ | ⟨hmode, hend, hstep⟩ :=
      r.step_cases c
    · -- a line end between records ends a line or nothing
      refine ⟨fun _ => ?_, absurd hmode⟩
      have hrest := (ih r).1 hmode
      rw [records_of_none hstep, loneReturns_of_none hstep, List.head?_cons]
      obtain rfl | rfl := eq_or_eq_of_isLineEnd hend
      · rw [linesOf, if_pos rfl, if_pos rfl]
        omega
      · rw [linesOf, if_neg (by decide), if_neg (by decide)]
        omega
    · -- in a record the lines that follow are still to come
      have hrest := (ih t).2 hinside
      have hline := le_linesOf_cons c rest
      rw [records_of_none hstep, loneReturns_of_none hstep]
      refine ⟨fun hmode => ?_, fun _ => by omega⟩
      have hc : c ≠ '\n' := by
        rintro rfl
        cases hbetween hmode
      rw [List.head?_cons, if_neg (by simpa using hc)]
      omega
    · -- at the end of a record its line ends too, or the carriage return stands alone
      refine ⟨fun h => absurd h hmode, fun _ => ?_⟩
      have hrest := (ih .initial).1 rfl
      have hline := le_linesOf_cons c rest
      rw [records_of_some hstep, loneReturns_of_some hstep, List.length_cons]
      obtain rfl | rfl := eq_or_eq_of_isLineEnd hend
      · rw [linesOf, if_pos rfl]
        omega
      · cases rest with
        | nil =>
          rw [show initial.records [] = [] from rfl, List.length_nil]
          omega
        | cons d more =>
          by_cases hd : d = '\n'
          · subst hd
            rw [List.head?_cons, if_pos rfl] at hrest
            omega
          · rw [if_pos ⟨rfl, by simpa [isLone] using hd⟩]
            omega

/-- Every record but the last has a character at its end. -/
theorem length_records_le_length (r : Reading) (cs : List Char) :
    (r.records cs).length ≤ cs.length + 1 := by
  induction cs generalizing r with
  | nil =>
    rw [records]
    split
    · exact Nat.zero_le _
    · exact Nat.le_refl _
  | cons c rest ih =>
    rw [records]
    split
    · next r _ => exact Nat.succ_le_succ (ih r)
    · next r _ => exact Nat.le_succ_of_le (ih r)

end Reading

/-- How many records of a text end with a carriage return that stands alone: the text goes on after
it, and not with a line feed. -/
def loneReturns (s : String) : Nat := Reading.initial.loneReturns s.toList

/-- The records that become rows are among those after the first. -/
theorem Sheet.length_accepted_le (source : String) :
    (Sheet.accepted source).length ≤ (records source).length - 1 := by
  rw [← List.length_tail]
  exact List.length_filter_le _ _

theorem Sheet.length_rows (policy : FieldPolicy) (source : String) :
    (Sheet.ofText policy source).rows.length = (Sheet.accepted source).length := by
  rw [Sheet.ofText_eq]
  exact List.length_map _

/-- **The rows of a sheet are no more than its lines**, but for the carriage returns that end a
record alone. -/
theorem Sheet.length_rows_le (policy : FieldPolicy) (source : String) :
    (Sheet.ofText policy source).rows.length ≤
      (Sheet.ofText policy source).count + loneReturns source := by
  have hrecords := (Reading.initial.length_records_le source.toList).1 rfl
  have hrows := Sheet.length_accepted_le source
  rw [Sheet.length_rows, Sheet.ofText_eq]
  dsimp only
  rw [lineCount_eq]
  unfold loneReturns
  unfold records at hrows
  omega

/-- The rows of a text are no more than its characters. -/
theorem Sheet.length_accepted_le_length (source : String) :
    (Sheet.accepted source).length ≤ source.length := by
  have hrows := Sheet.length_accepted_le source
  have hrecords := Reading.initial.length_records_le_length source.toList
  rw [String.length_toList] at hrecords
  unfold records at hrows
  omega

end Table

/-! ## The number of the row at hand -/

/-- **The rows are numbered within bounds**: as long as the lines are counted, their count is the
given one and the number of the row at hand, if there is one, is not above that of the last. -/
def Vars.Numbers (count last : Int64) (locals : Vars) : Prop :=
  locals.get? Reserved.loadedDataCount = none ∨
    locals.get? Reserved.loadedDataCount = some (.int count) ∧
      ∀ value, locals.get? Reserved.loadedDataItemIndex = some value →
        ∃ index, value = .int index ∧ index ≤ last

/-- **An execution leaves the numbers alone**: it is not told to assign the count of the lines or
the number of the row. -/
def Execution.LeavesNumbers (x : Execution) : Prop :=
  x.tag.name ∈ assigningNames → ∀ key ∈ loadingNames, ¬x.tag.Assigns x.start key

/-- **An execution in the body of another one**: directly inside it, or inside one of those. What
stands inside a tag that goes over a file is in the body of that tag. -/
inductive Engine.InBody (e : Engine) (x : Execution) : Execution → Prop where
  /-- It is directly inside. -/
  | direct {y : Execution} (hy : e.Executes x y) : InBody e x y
  /-- It is inside one that is in the body. -/
  | inner {y z : Execution} (hy : InBody e x y) (hload : y.tag.name ≠ "load_data")
      (hz : e.Executes y z) : InBody e x z

/-- **Variables that tell of the lines as others do** are within the same bounds. Neither the count
nor a number within bounds is an iterator. -/
theorem Vars.Numbers.of_loading {count last : Int64} {locals others : Vars}
    (h : locals.Numbers count last)
    (hloading : ∀ key ∈ loadingNames, others.get? key = locals.get? key ∨
      ∃ items position, locals.get? key = some (.iter items position)) :
    others.Numbers count last := by
  obtain hcount | ⟨items, position, hiterator⟩ := hloading Reserved.loadedDataCount (by decide)
  · obtain hindex | ⟨items, position, hiterator⟩ :=
      hloading Reserved.loadedDataItemIndex (by decide)
    · unfold Numbers
      rw [hcount, hindex]
      exact h
    · obtain hnone | ⟨-, hbound⟩ := h
      · exact .inl (hcount.trans hnone)
      · obtain ⟨_, hint, -⟩ := hbound _ hiterator
        cases hint
  · obtain hnone | ⟨hsome, -⟩ := h
    · cases hnone.symm.trans hiterator
    · cases hsome.symm.trans hiterator

/-- **An act keeps the numbers within bounds** unless the tag assigns variables or goes over a
file. -/
theorem Act.numbers {tag : Tag} (hassigns : tag.name ∉ assigningNames)
    (hload : tag.name ≠ "load_data") {count last : Int64} {s t : Frame} (h : Act tag s t)
    (hs : s.locals.Numbers count last) : t.locals.Numbers count last :=
  hs.of_loading fun _ hkey => h.get?_kept hassigns hload (List.mem_cons_of_mem _ hkey)

/-- **A row has its own number or one that was there already.** -/
theorem Runner.rowNumber_eq_or (current : Option Value) (n : Int64) :
    rowNumber current n = .int n ∨ ∃ m, current = some (.int m) ∧ rowNumber current n = .int m := by
  unfold rowNumber
  split
  · next m =>
    split
    · exact .inl rfl
    · exact .inr ⟨m, rfl, rfl⟩
  · exact .inl rfl

/-- **A row keeps the numbers within bounds.** -/
theorem Vars.Numbers.rowScope {policy : Table.FieldPolicy} {source : String}
    (hlength : (Table.Sheet.accepted source).length < 0x8000000000000000) {count : Int64}
    {locals : Vars} {item : Vars × Nat}
    (hitem : item ∈ (Table.Sheet.ofText policy source).rows.zipIdx)
    (h : locals.Numbers count (Int64.ofNat (Table.Sheet.accepted source).length)) :
    Vars.Numbers count (Int64.ofNat (Table.Sheet.accepted source).length)
      (Runner.rowScope (Table.Sheet.ofText policy source).columns item.1 (item.2 + 1) locals) := by
  obtain ⟨row, n⟩ := item
  obtain ⟨hn, hrow⟩ := List.mem_zipIdx' hitem
  rw [Table.Sheet.length_rows] at hn
  obtain ⟨record, -, hrecord⟩ := List.mem_map.1 (List.fst_mem_of_mem_zipIdx hitem)
  have hdelivers := Runner.delivers_rowScope policy (Table.Sheet.ofText policy source).columns
    record n locals
  obtain rfl : Table.Sheet.row policy (Table.Sheet.ofText policy source).columns record = row :=
    hrecord
  have hsame := hdelivers.reserved Reserved.loadedDataCount (by decide) (by decide) (by decide)
  have hnumber : Int64.ofNat (n + 1) ≤ Int64.ofNat (Table.Sheet.accepted source).length :=
    (Int64.ofNat_le_iff_le (by omega) hlength).2 hn
  obtain hnone | ⟨hcount, hindex⟩ := h
  · exact .inl (hsame.trans hnone)
  · refine .inr ⟨hsame.trans hcount, fun value hvalue => ?_⟩
    obtain rfl := Option.some.inj (hdelivers.index.symm.trans hvalue)
    obtain heq | ⟨m, hcurrent, heq⟩ := Runner.rowNumber_eq_or
      (locals.get? Reserved.loadedDataItemIndex) (Int64.ofNat (n + 1))
    · exact ⟨_, heq, hnumber⟩
    · obtain ⟨_, hint, hle⟩ := hindex _ hcurrent
      obtain rfl := Value.int.inj hint
      exact ⟨_, heq, hle⟩

namespace Engine

variable {limit : Option Nat} {count last : Int64}

theorem numbers_start {y : Execution} (h : y.frame.locals.Numbers count last) :
    y.start.locals.Numbers count last :=
  h.of_loading fun _ hkey => .inl (@Frame.get?_enter y.frame y.tag (y.outer + 1) _
    (ne_of_mem_of_not_mem hkey (by decide)) (ne_of_mem_of_not_mem hkey (by decide)))

/-- **Inside a tag the numbers stay within bounds** if it does not go over a file itself, as far as
the executions before keep them there. -/
theorem numbers_inside {y : Execution} (hload : y.tag.name ≠ "load_data") (hself : y.LeavesNumbers)
    (h : y.frame.locals.Numbers count last)
    (hasked : ∀ z, (standard limit).Executes y z → z.frame.locals.Numbers count last →
      ((standard limit).ending z).Reaches (Vars.Numbers count last)) :
    (∀ z, (standard limit).Executes y z → z.frame.locals.Numbers count last) ∧
      ((standard limit).insideOf y).Reaches (Vars.Numbers count last) := by
  have hstart := numbers_start h
  by_cases hname : y.tag.name ∈ assigningNames
  · exact upheld_inside (upholds_of_deed (mem_leafNames_of_mem_assigningNames hname)
      fun _ _ _ s hdeed hs => hs.of_loading fun key hkey =>
        .inl (hdeed.get?_kept (List.mem_cons_of_mem _ hkey) (hself hname key hkey))) hstart hasked
  · exact upheld_inside (upholds_of_act (fun s t hact => hact.numbers hname hload) _) hstart hasked

/-- **Where an execution in a body ends the numbers are within bounds.** A file inside takes the
count away, and then there is nothing to bound. -/
theorem numbers_ending {x y : Execution}
    (hleaves : ∀ z, (standard limit).InBody x z → z.LeavesNumbers)
    (hy : (standard limit).InBody x y) (h : y.frame.locals.Numbers count last) :
    ((standard limit).ending y).Reaches (Vars.Numbers count last) := by
  refine @Encloses.induction (standard limit) y (fun z =>
    (standard limit).InBody x z → z.frame.locals.Numbers count last →
      ((standard limit).ending z).Reaches (Vars.Numbers count last))
    (fun _ z _ ih hz hnumbers => reaches_ending (fun _ _ hsame hlocals => hlocals.of_loading
      fun key hkey => .inl (hsame key (ne_of_mem_of_not_mem hkey (by decide)))) ?_) _ y .outermost
    hy h
  by_cases hload : z.tag.name = "load_data"
  · obtain ⟨fault, u, hfailed, hlocals⟩ | ⟨u, hcut⟩ | ⟨u, hdone⟩ := @inside_loadSheet limit z hload
    · rw [hfailed]
      show u.locals.Numbers count last
      rw [hlocals]
      exact numbers_start hnumbers
    · rw [hcut]
      trivial
    · rw [hdone]
      exact .inl ((Dict.get?_erase _ _ _).trans (if_pos rfl))
  · exact (numbers_inside hload (hleaves z hz) hnumbers fun u hu => ih u hu (hz.inner hload hu)).2

/-- **In the whole of a body the numbers are within bounds**, if there was no number before: the
count is that of the lines after the first, and the last number that of the last row. -/
theorem numbers_of_inBody {x y : Execution} (hname : x.tag.name = "load_data")
    (hindex : x.frame.locals.get? Reserved.loadedDataItemIndex = none)
    (hleaves : ∀ z, (standard limit).InBody x z → z.LeavesNumbers)
    (hy : (standard limit).InBody x y) :
    ∃ name source, Run.requireKey x.tag "name" x.start = .done name x.start ∧
      Run.readFile name x.start = .done source x.start ∧
      ((Table.Sheet.accepted source).length < 0x8000000000000000 →
        y.frame.locals.Numbers (Int64.ofNat (Table.lineCount source - 1))
          (Int64.ofNat (Table.Sheet.accepted source).length)) := by
  induction hy with
  | direct hy =>
    obtain ⟨policy, name, source, hfile, hsource, hupheld⟩ := upheld_of_executes hname hy
    refine ⟨name, source, hfile, hsource, fun hlength => hupheld (Vars.Numbers _ _)
      (fun _ _ hact => hact.numbers (by decide) (by decide))
      (fun item hitem locals => Vars.Numbers.rowScope hlength hitem) ?_
      fun z hz => numbers_ending hleaves (.direct hz)⟩
    refine .inr ⟨Dict.get?_insert_self _ _ _, fun value hvalue => ?_⟩
    have hnone : (Runner.counted x.start source).locals.get? Reserved.loadedDataItemIndex = none :=
      (Dict.get?_insert_of_ne _ _ (by decide)).trans
        ((@Frame.get?_enter x.frame x.tag (x.outer + 1) _ (by decide) (by decide)).trans hindex)
    cases hnone.symm.trans hvalue
  | inner hy hload hz ih =>
    obtain ⟨name, source, hfile, hsource, hnumbers⟩ := ih
    refine ⟨name, source, hfile, hsource, fun hlength => ?_⟩
    exact (numbers_inside hload (hleaves _ hy) (hnumbers hlength)
      fun z hz => numbers_ending hleaves (hy.inner hload hz)).1 _ hz

/-- **No row has a number above the count of the lines**, but for the carriage returns that end a
record alone: the rows of a file are no more than the lines after the first and these carriage
returns. So wherever a script sees the count in the body of a tag that goes over the file, and no
number was there before, the count is that of the lines, and the number is within this bound. -/
theorem execute_load_numbers_within_count (limit : Option Nat) :
    (∀ policy source, (Table.Sheet.ofText policy source).rows.length ≤
      (Table.Sheet.ofText policy source).count + Table.loneReturns source) ∧
    ∀ x : Execution, x.tag.name = "load_data" →
      x.frame.locals.get? Reserved.loadedDataItemIndex = none →
      (∀ y, (standard limit).InBody x y → y.LeavesNumbers) →
      ∀ y, (standard limit).InBody x y →
        ∃ name source, Run.requireKey x.tag "name" x.start = .done name x.start ∧
          Run.readFile name x.start = .done source x.start ∧
          (source.length < 0x8000000000000000 →
            ∀ value, y.frame.locals.get? Reserved.loadedDataCount = some value →
              ∃ count, value = .int count ∧ count.toInt = (Table.lineCount source - 1 : Nat) ∧
                ∀ value, y.frame.locals.get? Reserved.loadedDataItemIndex = some value →
                  ∃ index, value = .int index ∧
                    index.toInt ≤ count.toInt + Table.loneReturns source) := by
  refine ⟨Table.Sheet.length_rows_le, fun x hname hindex hleaves y hy => ?_⟩
  obtain ⟨name, source, hfile, hsource, hnumbers⟩ := numbers_of_inBody hname hindex hleaves hy
  refine ⟨name, source, hfile, hsource, fun hlength value hvalue => ?_⟩
  have hrows := Nat.lt_of_le_of_lt (Table.Sheet.length_accepted_le_length source) hlength
  have hlines : Table.lineCount source - 1 < 0x8000000000000000 :=
    Nat.lt_of_le_of_lt (Nat.sub_le _ _) (Nat.lt_of_le_of_lt (Table.lineCount_le_length source)
      hlength)
  have hlast := Int64.toInt_ofNat_of_lt hrows
  have hcount := Int64.toInt_ofNat_of_lt hlines
  have hbound := Table.Sheet.length_rows_le ⟨true, false⟩ source
  rw [Table.Sheet.length_rows, Table.Sheet.ofText_eq] at hbound
  obtain hnone | ⟨hsome, hindex⟩ := hnumbers hrows
  · cases hnone.symm.trans hvalue
  obtain rfl := Option.some.inj (hsome.symm.trans hvalue)
  refine ⟨_, rfl, hcount, fun value hvalue => ?_⟩
  obtain ⟨index, rfl, hle⟩ := hindex value hvalue
  refine ⟨index, rfl, ?_⟩
  rw [Int64.le_iff_toInt_le] at hle
  dsimp only at hbound
  omega

/-- The tag that executes nothing is all there is in its body. -/
theorem tag_eq_of_inBody_resting {y : Execution}
    (hy : (standard none).InBody (loadingRow [resting]) y) : y.tag = resting := by
  induction hy with
  | direct hy => exact List.mem_singleton.1 (hy.mem_tags (by decide))
  | inner hy hload hz ih =>
    exact absurd hz (not_executes_of_tags_eq_nil (by rw [ih]; decide) (by rw [ih]; rfl))

/-- In a file whose lines end with line feeds the only row is the first of one. -/
theorem resting_numbers_within_count :
    (loadingRow [resting]).tag.name = "load_data" ∧
    (loadingRow [resting]).frame.locals.get? Reserved.loadedDataItemIndex = none ∧
    (∀ y, (standard none).InBody (loadingRow [resting]) y → y.LeavesNumbers) ∧
    ("a\n1\n").length < 0x8000000000000000 ∧
    ∃ y index count, (standard none).InBody (loadingRow [resting]) y ∧
      y.frame.locals.get? Reserved.loadedDataItemIndex = some (.int index) ∧
      y.frame.locals.get? Reserved.loadedDataCount = some (.int count) ∧
      index.toInt ≤ count.toInt := by
  have hleaves : ∀ y, (standard none).InBody (loadingRow [resting]) y → y.LeavesNumbers := by
    intro y hy
    rw [Execution.LeavesNumbers, tag_eq_of_inBody_resting hy]
    exact fun h => absurd h (by decide)
  have hy := Engine.InBody.direct <| @executes_of_pass none (loadingRow [resting]) _ _ _ _
    ⟨rfl, rfl, rfl, rfl, rfl, rfl, rfl⟩ rfl (fun _ h => absurd h (Option.some_ne_none _).symm) 1 rfl
    _ _ accepted_row [] [] resting rfl _ _ (.completed (rowFrame [resting]))
  obtain ⟨name, source, hfile, hsource, hbounds⟩ :=
    (execute_load_numbers_within_count none).2 (loadingRow [resting]) rfl rfl hleaves _ hy
  obtain rfl : name = "rows.csv" := (Ending.done.inj (hfile.symm.trans rfl)).1
  obtain rfl : source = "a\n1\n" := (Ending.done.inj (hsource.symm.trans rfl)).1
  obtain ⟨count, hcount, -, hseen⟩ := hbounds (by decide) (.int 1) rfl
  obtain ⟨index, hindex, hle⟩ := hseen (.int 1) rfl
  rw [show Table.loneReturns "a\n1\n" = 0 by decide +kernel, Int.natCast_zero, Int.add_zero] at hle
  exact ⟨rfl, rfl, hleaves, by decide, _, index, count, hy, congrArg some hindex,
    congrArg some hcount, hle⟩

/-- An execution that goes over a file whose records end with carriage returns. -/
def returningRow : Execution :=
  ⟨loading [resting], 0,
    ⟨[], { World.ofFiles ((Files.empty []).makeFile ["rows.csv"] (.text "a\rx\ry")) "" .bare
      with searchPath := ["."] }⟩, 2⟩

/-- **A carriage return that stands alone ends a record and no line**: there are two rows and no
line after the first, and the script sees the number one beside the count zero. -/
theorem carriageReturns_exceed_count :
    (Table.Sheet.ofText ⟨true, false⟩ "a\rx\ry").rows.length = 2 ∧
    (Table.Sheet.ofText ⟨true, false⟩ "a\rx\ry").count = 0 ∧
    returningRow.frame.locals.get? Reserved.loadedDataItemIndex = none ∧
    ∃ y, (standard none).Executes returningRow y ∧
      y.frame.locals.get? Reserved.loadedDataItemIndex = some (.int 1) ∧
      y.frame.locals.get? Reserved.loadedDataCount = some (.int 0) := by
  have haccepted : Table.Sheet.accepted "a\rx\ry" = [["x"], ["y"]] := by decide +kernel
  have hy := @executes_of_pass none returningRow _ _ _ _
    ⟨rfl, rfl, rfl, rfl, rfl, rfl, rfl⟩ rfl (fun _ h => absurd h (Option.some_ne_none _).symm) 1 rfl
    _ _ haccepted [] [] resting rfl _ _ (.completed _)
  exact ⟨by decide +kernel, by decide +kernel, rfl, _, hy, rfl, rfl⟩

end Engine

end TagScript
