import Mathlib.Data.List.Chain
import TagScript.Proofs.Operands

/-!
# The order of values is an order

Integers, texts and truth values have orders of their own, and an array is
compared with another one item by item, up to the first items that differ. So
the order of values is partial: it is refused where two kinds meet, and within
arrays it is refused only if the comparison gets so far. Away from doubles it is
an order nevertheless. Turned around it says the reverse, what it tells equal is
the same value, and it goes on from neighbour to neighbour (`Value.compare_then`):
a place where the outer two of three values cannot be compared would have been
met between two neighbours before.

A chain of comparisons looks at neighbours only. As far as the order goes on, it
has looked at all pairs.
-/

namespace TagScript

/-- **A comparison goes on**: the outer two of three things compare as their
neighbours do. -/
theorem cmp_then {α : Type} {cmp : α → α → Ordering} [Std.TransCmp cmp] [Std.LawfulEqCmp cmp]
    {a b c : α} (hab : cmp a b ≠ .gt) (hbc : cmp b c ≠ .gt) :
    cmp a c = (cmp a b).then (cmp b c) := by
  cases hfirst : cmp a b with
  | gt => exact absurd hfirst hab
  | eq =>
    obtain rfl := Std.LawfulEqCmp.eq_of_compare hfirst
    rfl
  | lt =>
    cases hsecond : cmp b c with
    | gt => exact absurd hsecond hbc
    | eq =>
      obtain rfl := Std.LawfulEqCmp.eq_of_compare hsecond
      exact hfirst
    | lt => exact Std.TransCmp.lt_trans hfirst hsecond

theorem eq_lt {o : Ordering} (heq : o ≠ .eq) (hgt : o ≠ .gt) : o = .lt := by
  cases o with
  | lt => rfl
  | eq => exact absurd rfl heq
  | gt => exact absurd rfl hgt

namespace Value

/-! ## Values without doubles -/

mutual

/-- **Whether a double stands in a value**, however deep inside. -/
def hasDouble : Value → Bool
  | .float _ => true
  | .array items | .iter items _ => hasDoubleItems items
  | .map entries => hasDoubleEntries entries
  | _ => false

/-- Whether one stands in any of some items. -/
def hasDoubleItems : List Value → Bool
  | [] => false
  | v :: rest => hasDouble v || hasDoubleItems rest

/-- Whether one stands in any of some entries. -/
def hasDoubleEntries : List (String × Value) → Bool
  | [] => false
  | (_, v) :: rest => hasDouble v || hasDoubleEntries rest

end

/-- What the comparison of two values says of them the other way around. -/
def reversed : Except Incomparable Ordering → Except Incomparable Ordering
  | .ok o => .ok o.swap
  | .error kinds => .error ⟨kinds.right, kinds.left⟩

/-- **Arrays compare as their first items do**, or as the rest does if these are
equal. -/
theorem compareItems_cons_eq_ok {a b : Value} {as bs : List Value} {o : Ordering} :
    compareItems (a :: as) (b :: bs) = .ok o ↔
      (compare a b = .ok .eq ∧ compareItems as bs = .ok o) ∨ (compare a b = .ok o ∧ o ≠ .eq) := by
  simp only [compareItems]
  cases compare a b with
  | error kinds => simp
  | ok first => cases first <;> cases o <;> simp

theorem compareDoubles_swap (left right : Kind) (x y : Binary64) :
    compareDoubles right left y x = reversed (compareDoubles left right x y) := by
  unfold compareDoubles
  rw [← Binary64.compare?_swap x y]
  cases x.compare? y <;> rfl

mutual

/-- **Turned around, the order says the reverse**, and is refused where it was
refused. -/
theorem compare_swap (a b : Value) : compare b a = reversed (compare a b) := by
  cases a with
  | int m =>
    cases b with
    | int n => exact congrArg Except.ok Std.OrientedCmp.eq_swap
    | float y => exact compareDoubles_swap _ _ _ _
    | _ => rfl
  | float x =>
    cases b with
    | int n => exact compareDoubles_swap _ _ _ _
    | float y => exact compareDoubles_swap _ _ _ _
    | _ => rfl
  | str x =>
    cases b with
    | str y =>
      have hswap : Ord.compare y x = (Ord.compare x y).swap := Std.OrientedCmp.eq_swap
      exact congrArg Except.ok hswap
    | _ => rfl
  | bool x =>
    cases b with
    | bool y => exact congrArg Except.ok Std.OrientedCmp.eq_swap
    | _ => rfl
  | array as =>
    cases b with
    | array bs => exact compareItems_swap as bs
    | _ => rfl
  | null | map | iter | handler => cases b <;> rfl

theorem compareItems_swap (as bs : List Value) :
    compareItems bs as = reversed (compareItems as bs) := by
  cases as with
  | nil => cases bs <;> rfl
  | cons a as =>
    cases bs with
    | nil => rfl
    | cons b bs =>
      simp only [compareItems]
      rw [compare_swap a b]
      cases compare a b with
      | error kinds => rfl
      | ok first =>
        cases first with
        | eq => exact compareItems_swap as bs
        | lt | gt => rfl

end

mutual

/-- **What the order tells equal is the same value**, away from doubles. -/
theorem eq_of_compare {a b : Value} (ha : a.hasDouble = false) (hb : b.hasDouble = false)
    (h : compare a b = .ok .eq) : a = b := by
  cases a with
  | int m =>
    cases b with
    | int n => exact congrArg Value.int (compare_toInt_eq_iff.1 (Except.ok.inj h))
    | float y => cases hb
    | _ => cases h
  | float x => cases ha
  | str x =>
    cases b with
    | str y =>
      have hequal : Ord.compare x y = .eq := Except.ok.inj h
      exact congrArg Value.str (Std.LawfulEqCmp.eq_of_compare hequal)
    | _ => cases h
  | bool x =>
    cases b with
    | bool y =>
      have hequal := Std.LawfulEqCmp.eq_of_compare (Except.ok.inj h)
      cases x <;> cases y <;> first | rfl | cases hequal
    | _ => cases h
  | array as =>
    cases b with
    | array bs => exact congrArg Value.array (eq_of_compareItems ha hb h)
    | _ => cases h
  | null | map | iter | handler => cases b <;> cases h

theorem eq_of_compareItems {as bs : List Value} (ha : hasDoubleItems as = false)
    (hb : hasDoubleItems bs = false) (h : compareItems as bs = .ok .eq) : as = bs := by
  cases as with
  | nil =>
    cases bs with
    | nil => rfl
    | cons b bs => cases h
  | cons a as =>
    cases bs with
    | nil => cases h
    | cons b bs =>
      obtain ⟨ha, has⟩ := Bool.or_eq_false_iff.1 ha
      obtain ⟨hb, hbs⟩ := Bool.or_eq_false_iff.1 hb
      obtain ⟨hfirst, hrest⟩ | ⟨_, hne⟩ := compareItems_cons_eq_ok.1 h
      · rw [eq_of_compare ha hb hfirst, eq_of_compareItems has hbs hrest]
      · exact absurd rfl hne

end

mutual

/-- **The order goes on from neighbour to neighbour**, away from doubles: if
neither of two neighbours is the greater one, the outer two can be compared and
compare as their neighbours do. -/
theorem compare_then {a b c : Value} (ha : a.hasDouble = false) (hb : b.hasDouble = false)
    (hc : c.hasDouble = false) {o p : Ordering} (hab : compare a b = .ok o)
    (hbc : compare b c = .ok p) (ho : o ≠ .gt) (hp : p ≠ .gt) :
    compare a c = .ok (o.then p) := by
  cases a with
  | int l =>
    cases b with
    | int m =>
      cases c with
      | int n =>
        obtain rfl := Except.ok.inj hab
        obtain rfl := Except.ok.inj hbc
        exact congrArg Except.ok (cmp_then ho hp)
      | float z => cases hc
      | _ => cases hbc
    | float y => cases hb
    | _ => cases hab
  | float x => cases ha
  | str x =>
    cases b with
    | str y =>
      cases c with
      | str z =>
        obtain rfl := Except.ok.inj hab
        obtain rfl := Except.ok.inj hbc
        have houter : Ord.compare x z = (Ord.compare x y).then (Ord.compare y z) := cmp_then ho hp
        exact congrArg Except.ok houter
      | _ => cases hbc
    | _ => cases hab
  | bool x =>
    cases b with
    | bool y =>
      cases c with
      | bool z =>
        obtain rfl := Except.ok.inj hab
        obtain rfl := Except.ok.inj hbc
        exact congrArg Except.ok (cmp_then ho hp)
      | _ => cases hbc
    | _ => cases hab
  | array as =>
    cases b with
    | array bs =>
      cases c with
      | array cs => exact compareItems_then ha hb hc hab hbc ho hp
      | _ => cases hbc
    | _ => cases hab
  | null | map | iter | handler => cases b <;> cases hab

theorem compareItems_then {as bs cs : List Value} (ha : hasDoubleItems as = false)
    (hb : hasDoubleItems bs = false) (hc : hasDoubleItems cs = false) {o p : Ordering}
    (hab : compareItems as bs = .ok o) (hbc : compareItems bs cs = .ok p) (ho : o ≠ .gt)
    (hp : p ≠ .gt) : compareItems as cs = .ok (o.then p) := by
  cases as with
  | nil =>
    cases bs with
    | nil =>
      obtain rfl := Except.ok.inj hab
      exact hbc
    | cons b bs =>
      obtain rfl := Except.ok.inj hab
      cases cs with
      | nil => exact absurd (Except.ok.inj hbc).symm hp
      | cons c cs => rfl
  | cons a as =>
    cases bs with
    | nil => exact absurd (Except.ok.inj hab).symm ho
    | cons b bs =>
      cases cs with
      | nil => exact absurd (Except.ok.inj hbc).symm hp
      | cons c cs =>
        obtain ⟨ha, has⟩ := Bool.or_eq_false_iff.1 ha
        obtain ⟨hb, hbs⟩ := Bool.or_eq_false_iff.1 hb
        obtain ⟨hc, hcs⟩ := Bool.or_eq_false_iff.1 hc
        -- the first place at which one of the neighbours differs decides between the outer two
        obtain ⟨hfirst, hab⟩ | ⟨hfirst, hne⟩ := compareItems_cons_eq_ok.1 hab
        · obtain ⟨hsecond, hbc⟩ | ⟨hsecond, hne⟩ := compareItems_cons_eq_ok.1 hbc
          · exact compareItems_cons_eq_ok.2 (.inl
              ⟨compare_then ha hb hc hfirst hsecond nofun nofun,
                compareItems_then has hbs hcs hab hbc ho hp⟩)
          · obtain rfl := eq_lt hne hp
            have houter : o.then .lt = .lt := by cases o <;> first | rfl | exact absurd rfl ho
            rw [houter]
            exact compareItems_cons_eq_ok.2
              (.inr ⟨compare_then ha hb hc hfirst hsecond nofun hp, nofun⟩)
        · obtain rfl := eq_lt hne ho
          obtain ⟨hsecond, _⟩ | ⟨hsecond, _⟩ := compareItems_cons_eq_ok.1 hbc
          · have houter := compare_then ha hb hc hfirst hsecond ho nofun
            exact compareItems_cons_eq_ok.2 (.inr ⟨houter, nofun⟩)
          · have houter := compare_then ha hb hc hfirst hsecond ho hp
            exact compareItems_cons_eq_ok.2 (.inr ⟨houter, nofun⟩)

end

mutual

/-- No value without doubles stands where a double stands. -/
theorem mixes_eq_false {a b : Value} (ha : a.hasDouble = false) (hb : b.hasDouble = false) :
    a.mixes b = false := by
  cases a with
  | int m =>
    cases b with
    | float y => cases hb
    | _ => rfl
  | float x => cases ha
  | array as =>
    cases b with
    | array bs =>
      simp only [mixes]
      exact mixesItems_eq_false ha hb
    | _ => rfl
  | null | bool | str | map | iter | handler => rfl

theorem mixesItems_eq_false {as bs : List Value} (ha : hasDoubleItems as = false)
    (hb : hasDoubleItems bs = false) : mixesItems as bs = false := by
  cases as with
  | nil => rfl
  | cons a as =>
    cases bs with
    | nil => rfl
    | cons b bs =>
      obtain ⟨ha, has⟩ := Bool.or_eq_false_iff.1 ha
      obtain ⟨hb, hbs⟩ := Bool.or_eq_false_iff.1 hb
      simp only [mixesItems, mixes_eq_false ha hb, mixesItems_eq_false has hbs, Bool.or_false]

end

/-! ## The laws of the order -/

/-- **The order of values is an order among some values**, though it may refuse
to compare two of them. -/
structure IsOrderAmong (P : Value → Prop) : Prop where
  /-- Turned around, it says the reverse. -/
  swap {a b : Value} (ha : P a) (hb : P b) (o : Ordering) :
    compare a b = .ok o ↔ compare b a = .ok o.swap
  /-- It refuses two values whichever of them is the left one. -/
  refused {a b : Value} (ha : P a) (hb : P b) :
    (∃ kinds, compare a b = .error kinds) ↔ ∃ kinds, compare b a = .error kinds
  /-- What it tells equal is the same value. -/
  equal {a b : Value} (ha : P a) (hb : P b) (h : compare a b = .ok .eq) : a = b ∧ a.beq b = true
  /-- It goes on from neighbour to neighbour, and nothing is refused on the way. -/
  trans {a b c : Value} (ha : P a) (hb : P b) (hc : P c) {o p : Ordering}
    (hab : compare a b = .ok o) (hbc : compare b c = .ok p) (ho : o ≠ .gt) (hp : p ≠ .gt) :
    ∃ q, compare a c = .ok q ∧ q ≠ .gt ∧ (o = .lt ∨ p = .lt → q = .lt)

theorem compare_eq_ok_swap {a b : Value} {o : Ordering} (h : compare a b = .ok o) :
    compare b a = .ok o.swap := by
  rw [compare_swap a b, h]
  rfl

theorem exists_error_swap {a b : Value} (h : ∃ kinds, compare a b = .error kinds) :
    ∃ kinds, compare b a = .error kinds := by
  obtain ⟨kinds, h⟩ := h
  rw [compare_swap a b, h]
  exact ⟨_, rfl⟩

theorem isOrderAmong_hasDouble : IsOrderAmong fun v => v.hasDouble = false where
  swap _ _ o := by
    refine ⟨compare_eq_ok_swap, fun h => ?_⟩
    have hback := compare_eq_ok_swap h
    rwa [Ordering.swap_swap] at hback
  refused _ _ := ⟨exists_error_swap, exists_error_swap⟩
  equal ha hb h := ⟨eq_of_compare ha hb h, (beq_iff_compare h).2 ⟨rfl, mixes_eq_false ha hb⟩⟩
  trans ha hb hc o p hab hbc ho hp := by
    refine ⟨o.then p, compare_then ha hb hc hab hbc ho hp, ?_⟩
    cases o with
    | lt => exact ⟨nofun, fun _ => rfl⟩
    | eq => exact ⟨hp, fun h => h.resolve_left nofun⟩
    | gt => exact absurd rfl ho

end Value

/-! ## Chains of comparisons -/

namespace Comparison

/-- Between which values it holds, as the order tells. -/
theorem holds_less_iff {l r : Value} : less.holds l r = .ok true ↔ l.compare r = .ok .lt := by
  unfold holds
  cases l.compare r with
  | error kinds => simp [Except.map]
  | ok o => cases o <;> simp [Except.map]

theorem holds_lessEqual_iff {l r : Value} :
    lessEqual.holds l r = .ok true ↔ ∃ o, l.compare r = .ok o ∧ o ≠ .gt := by
  unfold holds
  cases l.compare r with
  | error kinds => simp [Except.map]
  | ok o => cases o <;> simp [Except.map]

end Comparison

/-- **A relation that goes on among some things holds between all of them as
soon as it holds between neighbours.** -/
theorem isChain_iff_pairwise_among {α : Type} {R : α → α → Prop} {P : α → Prop} {l : List α}
    (hl : ∀ a ∈ l, P a) (htrans : ∀ {a b c}, P a → P b → P c → R a b → R b c → R a c) :
    l.IsChain R ↔ l.Pairwise R := by
  refine ⟨fun h => ?_, List.Pairwise.isChain⟩
  let among a b := P a ∧ P b ∧ R a b
  have : Trans among among among :=
    ⟨fun ⟨ha, hb, hab⟩ ⟨_, hc, hbc⟩ => ⟨ha, hc, htrans ha hb hc hab hbc⟩⟩
  have hamong : l.IsChain among :=
    h.imp_of_mem_imp fun a b ha hb hab => ⟨hl a ha, hl b hb, hab⟩
  exact hamong.pairwise.imp fun h => h.2.2

namespace Runner

variable {site : Site} {c : Comparison} {s t : Frame}

/-- A comparison of values answers exactly if it has an answer. -/
theorem compareValues_eq_done {l r : Value} {answer : Bool} :
    compareValues c l r s = .done answer t ↔ c.holds l r = .ok answer ∧ s = t := by
  unfold compareValues
  cases c.holds l r with
  | error kinds =>
    refine ⟨fun h => ?_, fun h => ?_⟩
    · cases h
    · cases h.1
  | ok found =>
    refine ⟨fun h => ?_, ?_⟩
    · obtain ⟨rfl, rfl⟩ := Ending.done.inj h
      exact ⟨rfl, rfl⟩
    · rintro ⟨h, rfl⟩
      obtain rfl := Except.ok.inj h
      rfl

/-- **A chain of comparisons holds exactly if all its tags are executed and the
comparison holds between all neighbours.** -/
theorem chain_eq_done_true_iff {tags : List Tag} {previous : Value} :
    chain site c previous tags s = .done true t ↔
      ∃ outcomes, site.Series tags s outcomes t ∧
        (previous :: outcomes.map Outcome.toValue).IsChain fun l r => c.holds l r = .ok true := by
  induction tags generalizing previous s with
  | nil =>
    constructor
    · intro h
      obtain ⟨_, rfl⟩ := Ending.done.inj h
      exact ⟨[], .nil s, .singleton _⟩
    · rintro ⟨outcomes, hseries, _⟩
      cases hseries
      rfl
  | cons child rest ih =>
    constructor
    · intro h
      obtain ⟨outcome, u, hrun, h⟩ := Run.bind_eq_done.1 h
      obtain ⟨answer, v, hanswer, h⟩ := Run.bind_eq_done.1 h
      obtain ⟨hholds, rfl⟩ := compareValues_eq_done.1 hanswer
      cases answer with
      | false => cases h
      | true =>
        obtain ⟨outcomes, hseries, hchain⟩ := ih.1 h
        exact ⟨outcome :: outcomes, .cons hrun hseries, .cons_cons hholds hchain⟩
    · rintro ⟨outcomes, hseries, hchain⟩
      cases hseries with
      | cons hrun hrest =>
        obtain ⟨hholds, hchain⟩ := List.isChain_cons_cons.1 hchain
        unfold chain
        rw [Run.bind_of_done hrun, Run.bind_of_done (compareValues_eq_done.2 ⟨hholds, rfl⟩)]
        exact ih.2 ⟨_, hrest, hchain⟩

/-- **A comparison of the tags inside** yields true exactly if all of them are
executed and it holds between all neighbours. -/
theorem comparison_truthy_iff (hkeys : s.comparands? site.tag = none)
    (hlength : 2 ≤ site.tag.tags.length) :
    (∃ outcome t, comparison c site s = .done outcome t ∧ outcome.truthy = true) ↔
      ∃ outcomes t, site.Series site.tag.tags s outcomes t ∧
        (outcomes.map Outcome.toValue).IsChain fun l r => c.holds l r = .ok true := by
  obtain ⟨first, second, rest, htags⟩ :
      ∃ first second rest, site.tag.tags = first :: second :: rest := by
    match htags : site.tag.tags with
    | [] | [_] => simp [htags] at hlength
    | first :: second :: rest => exact ⟨first, second, rest, rfl⟩
  rw [comparison_of_tags (Run.keyPair_of_comparands? hkeys) htags, htags]
  constructor
  · rintro ⟨outcome, t, h, htrue⟩
    obtain ⟨outcome, u, hrun, h⟩ := Run.bind_eq_done.1 h
    obtain ⟨answer, v, hanswer, h⟩ := Run.bind_eq_done.1 h
    obtain ⟨rfl, rfl⟩ := Ending.done.inj h
    obtain rfl : answer = true := htrue
    obtain ⟨outcomes, hseries, hchain⟩ := chain_eq_done_true_iff.1 hanswer
    exact ⟨_, _, .cons hrun hseries, hchain⟩
  · rintro ⟨outcomes, t, hseries, hchain⟩
    cases hseries with
    | cons hrun hrest =>
      have hanswer := chain_eq_done_true_iff.2 ⟨_, hrest, hchain⟩
      rw [Run.bind_of_done hrun, Run.bind_of_done hanswer]
      exact ⟨_, t, rfl, rfl⟩

end Runner

namespace Engine

variable {limit : Option Nat} {means : Nat} {tag : Tag} {outer : Depth} {s : Frame}

/-- **A comparison of the tags inside it succeeds** where it holds between all
neighbours. -/
theorem succeeds_comparison_iff (c : Comparison) (hname : tag.name = c.name)
    (hwithin : ∀ d, limit = some d → (outer + 1).number ≤ d)
    (hkeys : (s.begin tag outer).comparands? tag = none) (hlength : 2 ≤ tag.tags.length) :
    (standard limit).Succeeds (means + 1) tag outer s ↔
      ∃ outcomes t,
        ((standard limit).site means tag outer).Series tag.tags (s.begin tag outer) outcomes t ∧
        (outcomes.map Outcome.toValue).IsChain fun l r => c.holds l r = .ok true := by
  have hmem : (tag.name, Runner.comparison c) ∈ builtins := hname ▸ c.mem_builtins
  have hinside := inside_of_mem hmem hwithin means s
  have htruthy := @Runner.comparison_truthy_iff ((standard limit).site means tag outer) c
    (s.begin tag outer) hkeys hlength
  rw [← htruthy, ← hinside]
  constructor
  · rintro ⟨outcome, u, h, htrue⟩
    obtain ⟨t, hdone, _⟩ | ⟨fault, t, _, rfl, _⟩ := boundary_eq_done.1 h
    · exact ⟨outcome, t, hdone, htrue⟩
    · exact absurd htrue Bool.false_ne_true
  · rintro ⟨outcome, t, hdone, htrue⟩
    exact ⟨outcome, _, boundary_of_done hdone, htrue⟩

/-- **The order of values is an order, and a chain of comparisons tells it of
all pairs.** Among values without doubles, the order turned around says the
reverse and is refused where it was refused, what it tells equal is the same
value, and it goes on from neighbour to neighbour. So let a comparison have two
or more tags inside that yield such values when they are executed one after
another. Then `less` and `less_equal`, which compare neighbours only, succeed
exactly if all earlier values are less than the later ones, or not greater. -/
theorem execute_chains_compare_all_pairs :
    Value.IsOrderAmong (fun v => v.hasDouble = false) ∧
    ∀ {limit : Option Nat} {means : Nat} {tag : Tag} {outer : Depth} {s t : Frame}
      {outcomes : List Outcome}, (∀ d, limit = some d → (outer + 1).number ≤ d) →
      (s.begin tag outer).comparands? tag = none → 2 ≤ tag.tags.length →
      ((standard limit).site means tag outer).Series tag.tags (s.begin tag outer) outcomes t →
      (∀ outcome ∈ outcomes, outcome.toValue.hasDouble = false) →
      (tag.name = "less" →
        ((standard limit).Succeeds (means + 1) tag outer s ↔
          (outcomes.map Outcome.toValue).Pairwise fun l r => l.compare r = .ok .lt)) ∧
      (tag.name = "less_equal" →
        ((standard limit).Succeeds (means + 1) tag outer s ↔
          (outcomes.map Outcome.toValue).Pairwise fun l r =>
            ∃ o, l.compare r = .ok o ∧ o ≠ .gt)) := by
  have horder := Value.isOrderAmong_hasDouble
  refine ⟨horder, fun {limit means tag outer s t outcomes} hwithin hkeys hlength hseries hfree =>
    ?_⟩
  have hvalues : ∀ v ∈ outcomes.map Outcome.toValue, v.hasDouble = false := by
    intro v hv
    obtain ⟨outcome, hmem, rfl⟩ := List.mem_map.1 hv
    exact hfree outcome hmem
  -- the one series there is decides
  have hchain (c : Comparison) (hname : tag.name = c.name) :
      (standard limit).Succeeds (means + 1) tag outer s ↔
        (outcomes.map Outcome.toValue).IsChain fun l r => c.holds l r = .ok true := by
    rw [succeeds_comparison_iff c hname hwithin hkeys hlength]
    refine ⟨?_, fun h => ⟨outcomes, t, hseries, h⟩⟩
    rintro ⟨others, u, hothers, h⟩
    obtain ⟨rfl, _⟩ := hseries.unique hothers
    exact h
  refine ⟨fun hname => ?_, fun hname => ?_⟩
  · rw [hchain .less hname]
    simp only [Comparison.holds_less_iff]
    refine isChain_iff_pairwise_among hvalues fun ha hb hc hab hbc => ?_
    obtain ⟨q, hac, _, hlt⟩ := horder.trans ha hb hc hab hbc nofun nofun
    rwa [hlt (.inl rfl)] at hac
  · rw [hchain .lessEqual hname]
    simp only [Comparison.holds_lessEqual_iff]
    refine isChain_iff_pairwise_among hvalues fun ha hb hc hab hbc => ?_
    obtain ⟨o, hab, ho⟩ := hab
    obtain ⟨p, hbc, hp⟩ := hbc
    obtain ⟨q, hac, hq, _⟩ := horder.trans ha hb hc hab hbc ho hp
    exact ⟨q, hac, hq⟩

/-- A tag that asks whether three variables rise. -/
def rising : Tag :=
  ⟨"less", [], [.tag (naming "x"), .tag (naming "y"), .tag (naming "z")], .nowhere⟩

/-- A frame in which they are three arrays that rise: what has no order in them
stands behind the first items that differ. -/
def ascending : Frame :=
  { blankFrame with locals := [("x", .array [.int 1, .str "a", .null]),
    ("y", .array [.int 1, .str "b"]), ("z", .array [.int 1, .str "b", .null])] }

theorem exists_series_rising {s : Frame}
    (hs : ∀ key, key ≠ Reserved.depth → key ≠ Reserved.logDatetime →
      s.read key = ascending.read key) :
    ∃ t, ((standard none).site 1 rising 0).Series rising.tags s
      [.value (.array [.int 1, .str "a", .null]), .value (.array [.int 1, .str "b"]),
        .value (.array [.int 1, .str "b", .null])] t := by
  have hread (key : String) := @run_reads (naming key) key (reads_naming key)
  obtain ⟨t, hx, ht⟩ := hread "x" (isPlainKey_of_notMem (by decide) rfl rfl) (by decide)
    (by decide) 0 rising 0 s
  obtain ⟨u, hy, hu⟩ := hread "y" (isPlainKey_of_notMem (by decide) rfl rfl) (by decide)
    (by decide) 0 rising 0 t
  obtain ⟨v, hz, _⟩ := hread "z" (isPlainKey_of_notMem (by decide) rfl rfl) (by decide)
    (by decide) 0 rising 0 u
  rw [hs "x" (by decide) (by decide)] at hx
  rw [ht "y" (by decide) (by decide), hs "y" (by decide) (by decide)] at hy
  rw [hu "z" (by decide) (by decide), ht "z" (by decide) (by decide),
    hs "z" (by decide) (by decide)] at hz
  exact ⟨v, .cons hx (.cons hy (.cons hz (.nil v)))⟩

theorem rising_compares_all_pairs : (standard none).Succeeds 2 rising 0 ascending := by
  obtain ⟨t, hseries⟩ := exists_series_rising fun key =>
    @Frame.read_begin_of_ne ascending rising key 0
  have hpairs := (execute_chains_compare_all_pairs.2 (fun _ h => by cases h) rfl (by decide)
    hseries (by simp; decide)).1 rfl
  exact hpairs.2 (by simp; decide)

end Engine

end TagScript
