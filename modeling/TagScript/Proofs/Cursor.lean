import TagScript.Proofs.Isolation

/-!
# Iterators give out what they have left

An iterator keeps all its items and the place that it has come to, so what matters
of it is what it has left. A step gives out the first of these items and leaves the
others; at the end it gives out true and leaves the iterator as it is. The iterator
goes back to where it was found, be that the local variables or the global ones, so
the next step finds it there again.

`Engine.Draws` is a run of such steps of one variable, by whatever tags and at
whatever depths they are taken, and it is told by what the iterator had left when it
began (`Draws.eq`).
-/

namespace TagScript

namespace Value

/-- **The items that an iterator has left.** Nothing else has any. -/
def left? : Value → Option (List Value)
  | .iter items position => some (remaining items position)
  | _ => none

/-- **What an iterator gives out** that has these items left: the first one, and
true at its end. -/
def given (left : List Value) : Value := left.head?.getD (.bool true)

theorem given_drop (left : List Value) (i : Nat) :
    given (left.drop i) = left[i]?.getD (.bool true) := by
  unfold given
  rw [List.head?_drop]

/-- A step gives out the first item that is left and goes on by one, if there is
one. -/
theorem exists_advance (items : List Value) (position : Nat) :
    ∃ next, (next = position ∨ next = position + 1) ∧
      (advance items position).1.getD (.bool true) = given (remaining items position) ∧
      (advance items position).2 = .iter items next ∧
      remaining items next = (remaining items position).tail := by
  unfold advance given remaining
  rw [List.head?_drop, List.tail_drop]
  cases h : items[position]? with
  | some item => exact ⟨position + 1, .inr rfl, rfl, rfl, rfl⟩
  | none =>
    have hend : items.length ≤ position := List.getElem?_eq_none_iff.1 h
    refine ⟨position, .inl rfl, rfl, rfl, ?_⟩
    rw [List.drop_of_length_le hend, List.drop_of_length_le (Nat.le_succ_of_le hend)]

theorem exists_of_left? {v : Value} {left : List Value} (h : v.left? = some left) :
    ∃ items position, v = .iter items position ∧ remaining items position = left := by
  cases v with
  | iter items position => exact ⟨items, position, rfl, Option.some.inj h⟩
  | null | bool | int | float | str | array | map | handler => cases h

end Value

namespace Frame

/-- Whether a variable is bound locally. -/
theorem contains_locals_iff {s : Frame} {key : String} :
    s.locals.contains key = false ↔ s.locals.get? key = none := by
  unfold Dict.contains
  cases s.locals.get? key <;> simp

/-- **A variable that is put back where it was found** is found there. -/
theorem read_set_found (s : Frame) (key : String) (v : Value) :
    (s.set key v (!s.locals.contains key)).read key = v := by
  unfold set read lookup Scope.lookup
  cases h : s.locals.contains key with
  | true => simp [setLocal]
  | false => simp [setGlobal, contains_locals_iff.1 h]

end Frame

namespace Runner

variable {site : Site} {s : Frame} {key : String}

/-- **A step of an iterator.** -/
theorem stepIterator_of_iter (hkey : Run.requireKey site.tag "key" s = .done key s)
    {items : List Value} {position : Nat} (hread : s.read key = .iter items position) :
    stepIterator site s =
      .done (.value ((Value.advance items position).1.getD (.bool true)))
        (s.set key (Value.advance items position).2 (!s.locals.contains key)) := by
  have hlook : Run.look (fun s => !s.locals.contains key) s =
      .done (!s.locals.contains key) s := rfl
  have hvalue : Run.read key s = .done (.iter items position) s :=
    congrArg (Ending.done · s) hread
  unfold stepIterator
  rw [Run.bind_of_done hkey, Run.bind_of_done hlook, Run.bind_of_done hvalue]
  rfl

/-- **An iterator is made** of the items of a value and has all of them left. -/
theorem makeIterator_of_items? (hkey : Run.requireKey site.tag "key" s = .done key s)
    {source : String} (hsource : Run.requireKey site.tag "src" s = .done source s)
    {items : List Value} (hitems : (s.read source).items? = some items) :
    makeIterator site s = .done .ok (s.setLocal key (.iter items 0)) := by
  have hvalue : Run.read source s = .done (s.read source) s := rfl
  unfold makeIterator
  rw [Run.bind_of_done hkey, Run.bind_of_done hsource, Run.bind_of_done hvalue, hitems]
  rfl

/-- It is not made of a value that has no items. -/
theorem makeIterator_of_none (hkey : Run.requireKey site.tag "key" s = .done key s)
    {source : String} (hsource : Run.requireKey site.tag "src" s = .done source s)
    (hitems : (s.read source).items? = none) :
    makeIterator site s = .failed (.of (.notIterable source (s.read source).kind)) s := by
  have hvalue : Run.read source s = .done (s.read source) s := rfl
  unfold makeIterator
  rw [Run.bind_of_done hkey, Run.bind_of_done hsource, Run.bind_of_done hvalue, hitems]
  rfl

end Runner

namespace Engine

variable {limit : Option Nat} {outer : Depth} {s t : Frame} {key : String}

/-- A tag that makes an iterator leaves it with all items. -/
theorem exists_execute_makeIterator {making : Tag} (hname : making.name = "iter_make")
    (hwithin : ∀ d, limit = some d → (outer + 1).number ≤ d)
    (hkey : Run.requireKey making "key" (s.begin making outer) = .done key (s.begin making outer))
    {source : String}
    (hsource : Run.requireKey making "src" (s.begin making outer) =
      .done source (s.begin making outer))
    {items : List Value} (hitems : ((s.begin making outer).read source).items? = some items)
    (means : Nat) :
    ∃ t, (standard limit).execute (means + 1) making outer s = .done .ok t ∧
      (t.read key).left? = some items := by
  have hmem : (making.name, Runner.makeIterator) ∈ builtins := by simp [builtins, hname]
  have hmade := (inside_of_mem hmem hwithin means s).trans
    (@Runner.makeIterator_of_items? ((standard limit).site means making outer) _ _ hkey _ hsource _
      hitems)
  refine ⟨_, boundary_of_done hmade, ?_⟩
  rw [Frame.read_leave]
  simp [Frame.read, Frame.lookup, Frame.setLocal, Value.left?, Value.remaining]

/-- **An execution that takes a step** of the iterator in a variable, as far as its
name, its depth and its attributes tell. -/
structure TakesStep (limit : Option Nat) (key : String) (step : Tag) (outer : Depth) (s : Frame) :
    Prop where
  name : step.name = "iter_next"
  within : ∀ d, limit = some d → (outer + 1).number ≤ d
  named : Run.requireKey step "key" (s.begin step outer) = .done key (s.begin step outer)

/-- **It gives out the first item that is left.** -/
theorem TakesStep.exists_execute {step : Tag} (h : TakesStep limit key step outer s)
    (hdepth : key ≠ Reserved.depth) (htime : key ≠ Reserved.logDatetime) {left : List Value}
    (hleft : (s.read key).left? = some left) (means : Nat) :
    ∃ t, (standard limit).execute (means + 1) step outer s = .done (.value (.given left)) t ∧
      (t.read key).left? = some left.tail := by
  obtain ⟨items, position, hread, rfl⟩ := Value.exists_of_left? hleft
  obtain ⟨next, _, hgiven, hnext, htail⟩ := Value.exists_advance items position
  have hmem : (step.name, Runner.stepIterator) ∈ builtins := by simp [builtins, h.name]
  have hstep := (inside_of_mem hmem h.within means s).trans
    (@Runner.stepIterator_of_iter ((standard limit).site means step outer) _ _ h.named _ _
      ((Frame.read_begin_of_ne hdepth htime).trans hread))
  rw [hgiven, hnext] at hstep
  refine ⟨_, boundary_of_done hstep, ?_⟩
  rw [Frame.read_leave, Frame.read_set_found]
  exact congrArg some htail

/-- **Steps of an iterator, one after another**, with what they yield. -/
inductive Draws (limit : Option Nat) (key : String) : Frame → List Outcome → Frame → Prop where
  /-- No step is taken. -/
  | none (s : Frame) : Draws limit key s [] s
  /-- A step and those after it. -/
  | next {step : Tag} {outer : Depth} {means : Nat} {s t u : Frame} {outcome : Outcome}
      {outcomes : List Outcome} (hstep : TakesStep limit key step outer s)
      (h : (standard limit).execute means step outer s = .done outcome t)
      (hrest : Draws limit key t outcomes u) : Draws limit key s (outcome :: outcomes) u

/-- **Steps give out the items that were left**, one after another and then true
each time, and leave the others. -/
theorem Draws.eq (hdepth : key ≠ Reserved.depth) (htime : key ≠ Reserved.logDatetime)
    {outcomes : List Outcome} (h : Draws limit key s outcomes t) {left : List Value}
    (hleft : (s.read key).left? = some left) :
    (∀ (i : Nat) (outcome : Outcome), outcomes[i]? = some outcome →
      outcome = .value (left[i]?.getD (.bool true))) ∧
    (t.read key).left? = some (left.drop outcomes.length) := by
  induction h generalizing left with
  | none s => exact ⟨fun i outcome hi => absurd hi (by simp), hleft⟩
  | @next step outer means s t u outcome outcomes hstep h hrest ih =>
    cases means with
    | zero => cases h
    | succ means =>
      obtain ⟨t', hexec, htail⟩ := hstep.exists_execute hdepth htime hleft means
      obtain ⟨rfl, rfl⟩ := Ending.done.inj (h.symm.trans hexec)
      obtain ⟨hgiven, hend⟩ := ih htail
      refine ⟨fun i outcome hi => ?_, ?_⟩
      · cases i with
        | zero =>
          rw [← Value.given_drop]
          exact (Option.some.inj hi).symm
        | succ i =>
          rw [← Value.given_drop, ← List.drop_tail, Value.given_drop]
          exact hgiven i outcome hi
      · rw [hend, List.length_cons, List.drop_tail]

end Engine

end TagScript
