import TagScript.Proofs.Numbering

/-!
# The number of a row is a maximum

A row of a file is numbered by its place, unless a greater number is there
already. Where the rows share the local variables, what is there already is
the number of the row before; where each has a copy of its own, it is what
was there before the tag. So it is not the same test that is made in the two
cases, and it is made once in the one and over and over in the other.

It comes to the same: in both cases the number is the greater one of the
place and of the number that was there before the tag (`rowNumber_rowNumber`),
as long as nothing in the body sets another one. A tag inside that goes over
a file and shares the local variables does so if it gets further than that
number.
-/

namespace TagScript

namespace Runner

/-- **The number that the row at a place is shown with**, given what was there before the tag. -/
def shownNumber (before : Option Value) (place : Nat) : Int :=
  match before with
  | some (.int m) => max m.toInt place
  | _ => place

/-- It is the number that the row is given. -/
theorem exists_rowNumber (before : Option Value) {place : Nat}
    (hplace : place < 0x8000000000000000) :
    ∃ number : Int64, rowNumber before (Int64.ofNat place) = .int number ∧
      number.toInt = shownNumber before place := by
  have hint := Int64.toInt_ofNat_of_lt hplace
  cases before with
  | none => exact ⟨_, rfl, hint⟩
  | some value =>
    cases value with
    | int m =>
      dsimp only [rowNumber, shownNumber]
      by_cases hlt : m < Int64.ofNat place
      · rw [if_pos hlt]
        rw [Int64.lt_iff_toInt_lt, hint] at hlt
        exact ⟨_, rfl, by omega⟩
      · rw [if_neg hlt]
        rw [Int64.lt_iff_toInt_lt, hint] at hlt
        exact ⟨m, rfl, by omega⟩
    | _ => exact ⟨_, rfl, hint⟩

/-- **A row that finds the number of an earlier one is numbered as if it found what that one has
found.** -/
theorem rowNumber_rowNumber (before : Option Value) {a b : Int64} (h : a ≤ b) :
    rowNumber (some (rowNumber before a)) b = rowNumber before b := by
  have hagain : rowNumber (some (.int a)) b = .int b := by
    show (if a < b then Value.int b else .int a) = .int b
    split
    · rfl
    · next hle => rw [Int64.le_antisymm h (Int64.not_lt.1 hle)]
  unfold rowNumber at hagain ⊢
  cases before with
  | none => exact hagain
  | some value =>
    cases value with
    | int m =>
      dsimp only
      by_cases hma : m < a
      · rw [if_pos hma, if_pos (Int64.lt_of_lt_of_le hma h)]
        exact hagain
      · rw [if_neg hma]
    | _ => exact hagain

/-- The greater the place, the greater the number. -/
theorem shownNumber_le (before : Option Value) {a b : Nat} (h : a ≤ b) :
    shownNumber before a ≤ shownNumber before b := by
  unfold shownNumber
  split
  · omega
  · omega

end Runner

/-- **An execution leaves the number of the row**: it does not bind it as it is told to, nor by
going over a file and sharing the local variables, if that has rows and they get further. -/
structure Execution.LeavesRow (limit : Option Nat) (x : Execution) : Prop where
  /-- It is not told to. -/
  binds : ¬x.Binds limit Reserved.loadedDataItemIndex
  /-- It delivers no rows, or no more than the number that is there. -/
  delivers : ∀ source rounds stop t, x.GoesThrough limit true source rounds stop t →
    rounds = [] ∨ ∃ m : Int64,
      x.start.locals.get? Reserved.loadedDataItemIndex = some (.int m) ∧
        (rounds.length : Int) ≤ m.toInt

/-- **Its body leaves the number**: so does every execution in it that shares the local
variables. -/
def Execution.BodyLeavesRow (limit : Option Nat) (x : Execution) : Prop :=
  ∀ y z, (Engine.standard limit).Executes x y → (Engine.standard limit).Shares y z →
    z.LeavesRow limit

namespace Engine

variable {limit : Option Nat}

theorem get?_itemIndex_start (x : Execution) :
    x.start.locals.get? Reserved.loadedDataItemIndex =
      x.frame.locals.get? Reserved.loadedDataItemIndex :=
  @Frame.get?_enter x.frame x.tag (x.outer + 1) _ (by decide) (by decide)

/-- A row that is not beyond the number that is there leaves it. -/
theorem get?_itemIndex_of_delivers {policy : Table.FieldPolicy} {columns : List String}
    {record : Table.Record} {n : Nat} {before after : Vars} {m : Int64}
    (h : Runner.Delivers policy columns record n before after) (hn : (n + 1 : Int) ≤ m.toInt)
    (hbefore : before.get? Reserved.loadedDataItemIndex = some (.int m)) :
    after.get? Reserved.loadedDataItemIndex = some (.int m) := by
  have hbound := m.toInt_lt
  obtain ⟨number, hnumber, hint⟩ :=
    Runner.exists_rowNumber (some (.int m)) (show n + 1 < 0x8000000000000000 by omega)
  have hsame : number.toInt = m.toInt := by
    rw [hint]
    show max m.toInt ((n + 1 : Nat) : Int) = m.toInt
    omega
  rw [h.index, hbefore, hnumber, Int64.toInt_inj.1 hsame]

/-- **The number stays as long as all that share the local variables leave it.** -/
theorem reaches_itemIndex {x : Execution} {m : Int64}
    (hleaves : ∀ z, (standard limit).Shares x z → z.LeavesRow limit)
    (hx : x.frame.locals.get? Reserved.loadedDataItemIndex = some (.int m)) :
    ((standard limit).ending x).Reaches fun locals =>
      locals.get? Reserved.loadedDataItemIndex = some (.int m) := by
  refine @Encloses.induction (standard limit) x (fun y =>
    (∀ z, (standard limit).Shares y z → z.LeavesRow limit) →
      y.frame.locals.get? Reserved.loadedDataItemIndex = some (.int m) →
      ((standard limit).ending y).Reaches fun locals =>
        locals.get? Reserved.loadedDataItemIndex = some (.int m))
    (fun _ y _ ih hleaves hy => ?_) _ x .outermost hleaves hx
  have hself := hleaves y .itself
  have hstart := (get?_itemIndex_start y).trans hy
  refine reaches_ending (fun _ _ hsame hlocals => (hsame _ (by decide)).trans hlocals) ?_
  refine reaches_inside (by decide) (I := (· = some (.int m))) nofun hself.binds ?_ hstart
    fun hcopy z hz hstarts => ih z hz (fun u hu => hleaves u (hu.of_executes hcopy hz)) hstarts
  intro source rounds stop t h n hn policy columns record before after hdelivers hbefore
  obtain rfl | ⟨k, hk, hlength⟩ := hself.delivers source rounds stop t h
  · exact absurd hn (Nat.not_lt_zero n)
  · obtain rfl := Value.int.inj (Option.some.inj (hk.symm.trans hstart))
    exact get?_itemIndex_of_delivers hdelivers (by omega) hbefore

/-- **The number in a round is that of its place or the greater one that was there before**,
whether the rounds share the local variables or not. -/
theorem get?_itemIndex_of_goesThrough {x : Execution} (hleaves : x.BodyLeavesRow limit)
    {shared : Bool} {source : String} {rounds : List Round} {stop : Stop} {t : Frame}
    (h : x.GoesThrough limit shared source rounds stop t)
    (hlength : (Table.Sheet.accepted source).length < 0x8000000000000000) {n : Nat}
    {round : Round} (hn : rounds[n]? = some round) :
    n < (Table.Sheet.accepted source).length ∧
    round.start.locals.get? Reserved.loadedDataItemIndex = some
      (Runner.rowNumber (x.frame.locals.get? Reserved.loadedDataItemIndex)
        (Int64.ofNat (n + 1))) := by
  have hcounted : (Runner.counted x.start source).locals.get? Reserved.loadedDataItemIndex =
      x.frame.locals.get? Reserved.loadedDataItemIndex :=
    (Dict.get?_insert_of_ne _ _ (by decide)).trans (get?_itemIndex_start x)
  obtain ⟨policy, name, -, -, -, hrounds⟩ := h.rounds
  have hplace {k : Nat} (hk : k < rounds.length) : k < (Table.Sheet.accepted source).length := by
    obtain ⟨_, _, hitem, -⟩ := hrounds.exists_start (List.getElem?_eq_getElem hk)
    simpa using (List.getElem?_eq_some_iff.1 hitem).1
  refine ⟨hplace (List.getElem?_eq_some_iff.1 hn).1, ?_⟩
  cases shared with
  | false =>
    obtain ⟨⟨record, m⟩, hitem, hstart⟩ := hrounds.of_copied.1 n round hn
    rw [List.getElem?_zipIdx, Nat.zero_add] at hitem
    obtain ⟨_, -, hpair⟩ := Option.map_eq_some_iff.1 hitem
    obtain ⟨rfl, rfl⟩ := Prod.mk.inj hpair
    rw [hstart, ← hcounted]
    exact (Runner.delivers_rowScope policy _ _ _ _).index
  | true =>
    -- after so many rounds the number is that of the last of them
    let I : Nat → Vars → Prop
      | 0, locals => locals.get? Reserved.loadedDataItemIndex =
          x.frame.locals.get? Reserved.loadedDataItemIndex
      | k + 1, locals => locals.get? Reserved.loadedDataItemIndex =
          some (Runner.rowNumber (x.frame.locals.get? Reserved.loadedDataItemIndex)
            (Int64.ofNat (k + 1)))
    refine (h.carries (I := I) ?_ ?_ hcounted).1 n round hn
    · intro k hk policy columns record before after hdelivers hI
      refine hdelivers.index.trans (congrArg some ?_)
      cases k with
      | zero => rw [show _ = _ from hI]
      | succ k =>
        have hbound := hplace hk
        rw [show _ = _ from hI]
        exact Runner.rowNumber_rowNumber _
          ((Int64.ofNat_le_iff_le (by omega) (by omega)).2 (Nat.le_succ _))
    · intro k hk y hy hI
      have hbound := hplace hk
      obtain ⟨number, hnumber, -⟩ := Runner.exists_rowNumber
        (x.frame.locals.get? Reserved.loadedDataItemIndex)
        (show k + 1 < 0x8000000000000000 by omega)
      have hI : y.frame.locals.get? Reserved.loadedDataItemIndex = some (.int number) := by
        rw [← hnumber]
        exact hI
      refine (reaches_itemIndex (fun z hz => hleaves y z hy hz) hI).mono fun locals hlocals => ?_
      rw [← hnumber] at hlocals
      exact hlocals

/-- **The number of a row is the maximum of its place and of what was there before.** Let a tag go
over the rows of a file, and let nothing in its body that shares the local variables set the
number. Then it faults where it began or goes through the rows, and in the beginning of the round
for each row the number is the place of the row, or that which was there before the tag if it is
greater. It never becomes smaller from one row to a later one.

Where another tag goes over the same file and finds the same number before, its rows show the same
numbers, whether the two share the local variables or not. -/
theorem execute_load_numbers_rows (limit : Option Nat) {x : Execution}
    (hname : x.tag.name = "load_data") (hleaves : x.BodyLeavesRow limit) :
    ((∃ fault u, (standard limit).insideOf x = .failed fault u ∧ u.locals = x.start.locals) ∨
      ∃ shared source rounds stop t, x.GoesThrough limit shared source rounds stop t) ∧
    ∀ shared source rounds stop t, x.GoesThrough limit shared source rounds stop t →
      (Table.Sheet.accepted source).length < 0x8000000000000000 →
      (∀ (n : Nat) (round : Round), rounds[n]? = some round → ∃ number : Int64,
        round.start.locals.get? Reserved.loadedDataItemIndex = some (.int number) ∧
          number.toInt = Runner.shownNumber
            (x.frame.locals.get? Reserved.loadedDataItemIndex) (n + 1)) ∧
      (∀ (m n : Nat) (first later : Round) (a b : Int64), m ≤ n →
        rounds[m]? = some first → rounds[n]? = some later →
        first.start.locals.get? Reserved.loadedDataItemIndex = some (.int a) →
        later.start.locals.get? Reserved.loadedDataItemIndex = some (.int b) → a ≤ b) ∧
      ∀ other : Execution, other.BodyLeavesRow limit →
        other.frame.locals.get? Reserved.loadedDataItemIndex =
          x.frame.locals.get? Reserved.loadedDataItemIndex →
        ∀ shared' rounds' stop' t', other.GoesThrough limit shared' source rounds' stop' t' →
          ∀ (n : Nat) (round round' : Round), rounds[n]? = some round → rounds'[n]? = some round' →
            round'.start.locals.get? Reserved.loadedDataItemIndex =
              round.start.locals.get? Reserved.loadedDataItemIndex := by
  refine ⟨exists_goesThrough hname, fun shared source rounds stop t h hlength => ?_⟩
  have hshows : ∀ n (round : Round), rounds[n]? = some round → ∃ number : Int64,
      round.start.locals.get? Reserved.loadedDataItemIndex = some (.int number) ∧
        number.toInt = Runner.shownNumber
          (x.frame.locals.get? Reserved.loadedDataItemIndex) (n + 1) := by
    intro n round hn
    obtain ⟨hplace, hget⟩ := get?_itemIndex_of_goesThrough hleaves h hlength hn
    obtain ⟨number, hnumber, hint⟩ := Runner.exists_rowNumber
      (x.frame.locals.get? Reserved.loadedDataItemIndex)
      (show n + 1 < 0x8000000000000000 by omega)
    exact ⟨number, hget.trans (congrArg some hnumber), hint⟩
  refine ⟨hshows, fun m n first later a b hmn hfirst hlater ha hb => ?_,
    fun other hother hsame shared' rounds' stop' t' h' n round round' hn hn' => ?_⟩
  · obtain ⟨_, ha', hfirst⟩ := hshows m first hfirst
    obtain ⟨_, hb', hlater⟩ := hshows n later hlater
    obtain rfl := Value.int.inj (Option.some.inj (ha'.symm.trans ha))
    obtain rfl := Value.int.inj (Option.some.inj (hb'.symm.trans hb))
    rw [Int64.le_iff_toInt_le, hfirst, hlater]
    exact Runner.shownNumber_le _ (Nat.succ_le_succ hmn)
  · rw [(get?_itemIndex_of_goesThrough hother h' hlength hn').2,
      (get?_itemIndex_of_goesThrough hleaves h hlength hn).2, hsame]

/-- A tag that goes over three rows on the local variables themselves, of which one tells that two
rows have been seen already. -/
def resuming : Execution :=
  ⟨⟨"load_data", [("name", some "rows.csv"), ("pass_through", some "yes")], [.tag resting],
      .nowhere⟩, 0,
    ⟨[(Reserved.loadedDataItemIndex, .int 2)],
      { World.ofFiles ((Files.empty []).makeFile ["rows.csv"] (.text "a\n1\n2\n3\n")) "" .bare
        with searchPath := ["."] }⟩, 2⟩

/-- A block that executes nothing shares its local variables with no other execution. -/
theorem eq_of_shares_resting {e : Engine} {y z : Execution} (hy : y.tag = resting)
    (h : e.Shares y z) : z = y := by
  induction h with
  | itself => rfl
  | inner hy' hshares _ ih =>
    subst ih
    refine absurd ⟨?_, .inr ?_⟩ hshares
    · rw [hy]
      decide
    · rw [hy]
      rfl

/-- The first two of its rows show the number two, and the third one three. -/
theorem resuming_numbers_rows :
    resuming.tag.name = "load_data" ∧ resuming.BodyLeavesRow none ∧
    (Table.Sheet.accepted "a\n1\n2\n3\n").length < 0x8000000000000000 ∧
    ∃ rounds t, resuming.GoesThrough none true "a\n1\n2\n3\n" rounds .completed t ∧
      rounds.length = 3 ∧ ∀ (n : Nat) (round : Round), rounds[n]? = some round →
        ∃ number : Int64,
          round.start.locals.get? Reserved.loadedDataItemIndex = some (.int number) ∧
            number.toInt = max (2 : Int) (n + 1 : Nat) := by
  have hleaves : resuming.BodyLeavesRow none := by
    intro y z hy hz
    have htag : y.tag = resting := List.mem_singleton.1 (hy.mem_tags (by decide))
    obtain rfl := eq_of_shares_resting htag hz
    constructor
    · rintro ⟨hassigns, -⟩
      rw [htag] at hassigns
      exact absurd hassigns (by decide)
    · intro source rounds stop t h
      have hname := h.name_eq
      rw [htag] at hname
      exact absurd hname (by decide)
  have haccepted : Table.Sheet.accepted "a\n1\n2\n3\n" = [["1"], ["2"], ["3"]] := by
    decide +kernel
  have hcalls : ¬((standard none).site resuming.means resuming.tag resuming.outer).calls := by
    simp [Site.calls, resuming]
  obtain ⟨rounds, stop, t, hrounds⟩ := Site.exists_rounds
    ((standard none).run_ne_failed resuming.means resuming.tag resuming.outer) true
    (Runner.delivery ⟨true, false⟩ "a\n1\n2\n3\n")
    (Table.Sheet.accepted "a\n1\n2\n3\n").zipIdx
    (Runner.counted resuming.start "a\n1\n2\n3\n")
  have htruthy : ∀ child ∈ resuming.tag.tags, ∀ s, ∃ outcome u,
      ((standard none).site resuming.means resuming.tag resuming.outer).run child s =
        .done outcome u ∧ outcome.truthy = true := by
    intro child hchild s
    obtain rfl := List.mem_singleton.1 hchild
    exact ⟨_, _, rfl, rfl⟩
  obtain ⟨rfl, hlength⟩ := hrounds.completed_of_holds hcalls (hrounds.holds htruthy)
  have h : resuming.GoesThrough none true "a\n1\n2\n3\n" rounds .completed t :=
    ⟨rfl, fun _ h => (by cases h), rfl, rfl, rfl, _, _, rfl, rfl, rfl, hrounds⟩
  have hshort : (Table.Sheet.accepted "a\n1\n2\n3\n").length < 0x8000000000000000 := by
    rw [haccepted]
    decide
  rw [haccepted] at hlength
  exact ⟨rfl, hleaves, hshort, rounds, t, h, hlength,
    ((execute_load_numbers_rows none rfl hleaves).2 _ _ _ _ _ h hshort).1⟩

end Engine

end TagScript
