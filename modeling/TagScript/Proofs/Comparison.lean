import TagScript.Proofs.Isolation
import TagScript.Proofs.Substitution
import TagScript.Proofs.Termination

/-!
# Comparisons are trichotomous

Two values are told equal in two ways. The order compares arrays item by
item, and an integer with a double as doubles; structural equality, which
decides whether arrays are equal, never takes an integer for a double. Where
two values have an order the two ways differ on one thing only, that an
integer stands in one array where a double stands in the other:
`Value.beq_iff_compare` says so by one induction on the values.

Of two values that have an order, then, one is less, equal or greater and
nothing else, and the other three comparisons are told from these.
-/

namespace TagScript

namespace Binary64

/-! ## Integers as doubles -/

theorem magnitude_ofMagnitude {m : Nat} (negative : Bool) (h : m < 0x8000000000000000) :
    (ofMagnitude negative m).magnitude = m := by
  unfold magnitude ofMagnitude
  rw [UInt64.toNat_ofNat']
  split <;> omega

/-- Rounding overflows to infinity and never beyond. -/
theorem isNaN_ofRatio (negative : Bool) (num den : Nat) :
    (ofRatio negative num den).isNaN = false := by
  have hnumber (m : Nat) (h : m ≤ infinite) : (ofMagnitude negative m).isNaN = false := by
    unfold isNaN
    rw [magnitude_ofMagnitude negative (Nat.lt_of_le_of_lt h (by decide))]
    exact decide_eq_false (Nat.not_lt.2 h)
  unfold ofRatio
  split
  · exact hnumber 0 (Nat.zero_le _)
  · exact hnumber _ (Nat.min_le_left _ _)

theorem isNaN_ofInt (n : Int) : (ofInt n).isNaN = false := isNaN_ofRatio _ _ _

theorem numEq_iff {x y : Binary64} : x.numEq y = true ↔ x.compare? y = some .eq := beq_iff_eq

theorem numEq_self {x : Binary64} (h : x.isNaN = false) : x.numEq x = true := by
  rw [numEq_iff, compare?, h]
  simp [Std.ReflCmp.compare_self]

end Binary64

namespace Value

/-! ## Where equality and order differ -/

mutual

/-- **Whether an integer stands in one value where a double stands in the
other.** -/
def mixes : Value → Value → Bool
  | .int _, .float _ => true
  | .float _, .int _ => true
  | .array as, .array bs => mixesItems as bs
  | _, _ => false

/-- Whether that is so of two items at the same place. -/
def mixesItems : List Value → List Value → Bool
  | a :: as, b :: bs => mixes a b || mixesItems as bs
  | _, _ => false

end

/-- Two arrays of which one holds an integer where the other one holds a
double. -/
def mixesInside : Value → Value → Bool
  | .array as, .array bs => mixesItems as bs
  | _, _ => false

/-- **Two integers that are rounded to the same double**, though they
differ. -/
def RoundsTogether (l r : Value) : Prop :=
  ∃ m n : Int64, l = .int m ∧ r = .int n ∧ m ≠ n ∧
    (Binary64.ofInt m.toInt).numEq (Binary64.ofInt n.toInt) = true

theorem compareDoubles_eq_ok {left right : Kind} {x y : Binary64} {o : Ordering} :
    compareDoubles left right x y = .ok o ↔ x.compare? y = some o := by
  unfold compareDoubles
  cases x.compare? y <;> simp

/-- Doubles that have an order are numerically equal where it says so. -/
theorem numEq_iff_of_compareDoubles {left right : Kind} {x y : Binary64} {o : Ordering}
    (h : compareDoubles left right x y = .ok o) : x.numEq y = true ↔ o = .eq := by
  rw [Binary64.numEq_iff, compareDoubles_eq_ok.1 h]
  exact ⟨Option.some.inj, congrArg some⟩

theorem compare_toInt_eq_iff {m n : Int64} :
    Ord.compare m.toInt n.toInt = .eq ↔ m = n :=
  Std.LawfulEqOrd.compare_eq_iff_eq.trans Int64.toInt_inj

mutual

/-- **Of two values that have an order, those are structurally equal that
the order tells equal, unless an integer stands where a double stands.** -/
theorem beq_iff_compare {a b : Value} {o : Ordering} (h : compare a b = .ok o) :
    a.beq b = true ↔ o = .eq ∧ a.mixes b = false := by
  cases a with
  | null | map | iter | handler => cases b <;> cases h
  | bool x =>
    cases b with
    | bool y =>
      obtain rfl := Except.ok.inj h
      cases x <;> cases y <;> decide
    | _ => cases h
  | str x =>
    cases b with
    | str y =>
      obtain rfl := Except.ok.inj h
      rw [compareOfLessAndEq_eq_eq String.le_refl String.not_le]
      simp [beq, mixes]
    | _ => cases h
  | int m =>
    cases b with
    | int n =>
      obtain rfl := Except.ok.inj h
      rw [compare_toInt_eq_iff]
      simp [beq, mixes]
    | float y => simp [beq, mixes]
    | _ => cases h
  | float x =>
    cases b with
    | int n => simp [beq, mixes]
    | float y =>
      have hdoubles : compareDoubles .float .float x y = .ok o := h
      simp [beq, mixes, numEq_iff_of_compareDoubles hdoubles]
    | _ => cases h
  | array as =>
    cases b with
    | array bs =>
      simp only [beq, mixes]
      exact beqItems_iff_compareItems h
    | _ => cases h

theorem beqItems_iff_compareItems {as bs : List Value} {o : Ordering}
    (h : compareItems as bs = .ok o) :
    beqItems as bs = true ↔ o = .eq ∧ mixesItems as bs = false := by
  cases as with
  | nil =>
    cases bs with
    | nil =>
      obtain rfl := Except.ok.inj h
      simp [beqItems, mixesItems]
    | cons b bs =>
      obtain rfl := Except.ok.inj h
      simp [beqItems]
  | cons a as =>
    cases bs with
    | nil =>
      obtain rfl := Except.ok.inj h
      simp [beqItems]
    | cons b bs =>
      have hstep : (match compare a b with
          | .error e => Except.error e
          | .ok .eq => compareItems as bs
          | .ok o => .ok o) = .ok o := h
      simp only [beqItems, mixesItems, Bool.and_eq_true, Bool.or_eq_false_iff]
      cases hfirst : compare a b with
      | error e =>
        rw [hfirst] at hstep
        cases hstep
      | ok first =>
        rw [hfirst] at hstep
        have hequal := beq_iff_compare hfirst
        cases first with
        | eq =>
          have hrest := beqItems_iff_compareItems hstep
          rw [hequal, hrest]
          exact ⟨fun ⟨⟨_, hitem⟩, ho, hitems⟩ => ⟨ho, hitem, hitems⟩,
            fun ⟨ho, hitem, hitems⟩ => ⟨⟨rfl, hitem⟩, ho, hitems⟩⟩
        | lt =>
          obtain rfl := Except.ok.inj hstep
          simp [hequal]
        | gt =>
          obtain rfl := Except.ok.inj hstep
          simp [hequal]

end

/-- **Loose equality agrees with the order**, where there is one: on all
numbers, but for integers that are rounded to the same double, and on arrays
that do not mix integers with doubles. -/
theorem looseEq_iff_compare {l r : Value} {o : Ordering} (h : compare l r = .ok o)
    (hexact : ¬RoundsTogether l r) :
    l.looseEq r = true ↔ o = .eq ∧ l.mixesInside r = false := by
  have hbeq := beq_iff_compare h
  cases l with
  | int m =>
    cases r with
    | int n =>
      obtain rfl := Except.ok.inj h
      rw [compare_toInt_eq_iff]
      refine ⟨fun heq => ⟨?_, rfl⟩, ?_⟩
      · refine Decidable.byContradiction fun hne => hexact ⟨m, n, rfl, rfl, hne, heq⟩
      · rintro ⟨rfl, _⟩
        exact Binary64.numEq_self (Binary64.isNaN_ofInt _)
    | float y =>
      have hdoubles : compareDoubles .int .float (.ofInt m.toInt) y = .ok o := h
      simp [looseEq, double?, mixesInside, numEq_iff_of_compareDoubles hdoubles]
    | _ => cases h
  | float x =>
    cases r with
    | int n =>
      have hdoubles : compareDoubles .float .int x (.ofInt n.toInt) = .ok o := h
      simp [looseEq, double?, mixesInside, numEq_iff_of_compareDoubles hdoubles]
    | float y =>
      have hdoubles : compareDoubles .float .float x y = .ok o := h
      simp [looseEq, double?, mixesInside, numEq_iff_of_compareDoubles hdoubles]
    | _ => cases h
  | array as =>
    cases r with
    | array bs => exact hbeq
    | _ => cases h
  | bool | str => cases r <;> exact hbeq
  | null | map | iter | handler => cases r <;> cases h

end Value

/-! ## Comparison tags -/

namespace Comparison

/-- The name of the tags that make a comparison. -/
def name : Comparison → String
  | .equal => "equal"
  | .notEqual => "not_equal"
  | .less => "less"
  | .lessEqual => "less_equal"
  | .greater => "greater"
  | .greaterEqual => "greater_equal"

theorem mem_builtins (c : Comparison) : (c.name, Runner.comparison c) ∈ builtins := by
  cases c <;> simp [builtins, name]

/-- The comparisons of which one holds between two values that have an
order. -/
def basic : List Comparison := [.less, .equal, .greater]

end Comparison

/-- A tag as the comparison of the same operands. -/
def Tag.asComparison (tag : Tag) (c : Comparison) : Tag := { tag with name := c.name }

namespace Frame

/-- **The two values that a comparison of two variables compares**, if the
tag names two variables. -/
def comparands? (s : Frame) (tag : Tag) : Option (Value × Value) :=
  if (s.attrKey tag "key1").isEmpty || (s.attrKey tag "key2").isEmpty then none
  else some (s.read (s.attrKey tag "key1"), s.read (s.attrKey tag "key2"))

/-- Which comparison the tag makes does not matter for what it compares. -/
theorem comparands?_begin (s : Frame) (tag : Tag) (c : Comparison) (outer : Depth) :
    (s.begin (tag.asComparison c) outer).comparands? (tag.asComparison c) =
      (s.begin tag outer).comparands? tag := by
  have hglobals : (s.begin (tag.asComparison c) outer).world.globals =
      (s.begin tag outer).world.globals := by
    unfold begin invoke enter
    simp only [World.globals_note]
  unfold comparands? attrKey attrText substitute read lookup
  rw [hglobals]
  rfl

end Frame

/-- Which two variables an operator looks at depends on how its keys read. -/
theorem Run.keyPair_apply (tag : Tag) (s : Frame) :
    keyPair tag s =
      .done (if (s.attrKey tag "key1").isEmpty || (s.attrKey tag "key2").isEmpty then none
        else some (s.attrKey tag "key1", s.attrKey tag "key2")) s := rfl

theorem Run.keyPair_of_comparands? {tag : Tag} {s : Frame} (h : s.comparands? tag = none) :
    keyPair tag s = .done none s := by
  unfold Frame.comparands? at h
  split at h
  · next hunnamed => rw [keyPair_apply, if_pos hunnamed]
  · cases h

namespace Runner

/-- **A comparison of two variables** answers or faults as the comparison of
their values does. -/
theorem comparison_of_comparands? (c : Comparison) {site : Site} {s : Frame} {l r : Value}
    (h : s.comparands? site.tag = some (l, r)) :
    comparison c site s =
      match c.holds l r with
      | .ok answer => .done (.ofBool answer) s
      | .error kinds => .failed (.of (.incomparable kinds)) s := by
  unfold Frame.comparands? at h
  split at h
  · cases h
  next hnamed =>
  obtain ⟨rfl, rfl⟩ := Prod.mk.inj (Option.some.inj h)
  have hpair : Run.keyPair site.tag s =
      .done (some (s.attrKey site.tag "key1", s.attrKey site.tag "key2")) s := by
    rw [Run.keyPair_apply, if_neg hnamed]
  unfold comparison
  rw [Run.bind_of_done hpair]
  have hread (key : String) : Run.read key s = .done (s.read key) s := rfl
  dsimp only
  rw [Run.bind_of_done (hread _), Run.bind_of_done (hread _), compareValues]
  cases c.holds (s.read (s.attrKey site.tag "key1")) (s.read (s.attrKey site.tag "key2")) with
  | ok answer => rfl
  | error kinds => rfl

/-- A comparison that names no two variables compares the tags inside. -/
theorem comparison_of_tags {c : Comparison} {site : Site} {s : Frame} {first second : Tag}
    {rest : List Tag} (hpair : Run.keyPair site.tag s = .done none s)
    (htags : site.tag.tags = first :: second :: rest) :
    comparison c site s = (do
      let value := (← site.run first).toValue
      return .ofBool (← chain site c value (second :: rest)) : Run Outcome) s := by
  unfold comparison
  rw [Run.bind_of_done hpair, htags]

end Runner

namespace Engine

/-- **A tag succeeds** if executing it yields something true. -/
def Succeeds (e : Engine) (means : Nat) (tag : Tag) (outer : Depth) (s : Frame) : Prop :=
  ∃ outcome t, e.execute means tag outer s = .done outcome t ∧ outcome.truthy = true

variable {limit : Option Nat} {means : Nat} {tag : Tag} {outer : Depth} {s : Frame}
  {l r : Value} {o : Ordering}

/-- **A comparison of two variables succeeds** where it holds between their
values. -/
theorem succeeds_asComparison_iff (hwithin : ∀ d, limit = some d → (outer + 1).number ≤ d)
    (hpair : (s.begin tag outer).comparands? tag = some (l, r)) (c : Comparison) :
    (standard limit).Succeeds (means + 1) (tag.asComparison c) outer s ↔
      c.holds l r = .ok true := by
  have hcomparands : (s.begin (tag.asComparison c) outer).comparands? (tag.asComparison c) =
      some (l, r) := (s.comparands?_begin tag c outer).trans hpair
  have hinside := (inside_of_mem c.mem_builtins hwithin means s).trans
    (Runner.comparison_of_comparands? c hcomparands)
  unfold Succeeds
  cases hholds : c.holds l r with
  | ok answer =>
    rw [hholds] at hinside
    have hdone : (standard limit).execute (means + 1) (tag.asComparison c) outer s = _ :=
      boundary_of_done hinside
    constructor
    · rintro ⟨outcome, t, hdone', htrue⟩
      obtain rfl := (Ending.done.inj (hdone.symm.trans hdone')).1
      exact congrArg Except.ok htrue
    · intro htrue
      exact ⟨_, _, hdone, Except.ok.inj htrue⟩
  | error kinds =>
    rw [hholds] at hinside
    have hdone : (standard limit).execute (means + 1) (tag.asComparison c) outer s = _ :=
      boundary_of_failed hinside
    constructor
    · rintro ⟨outcome, t, hdone', htrue⟩
      obtain rfl := (Ending.done.inj (hdone.symm.trans hdone')).1
      exact absurd htrue Bool.false_ne_true
    · intro htrue
      cases htrue

/-- **Comparisons are trichotomous.** Let two variables hold values that have
an order and are not two integers rounded to the same double. Then the values
are loosely equal where the order says that they are equal, unless they are
arrays of which one holds an integer where the other one holds a double. But
for such arrays, exactly one of less, equal and greater succeeds, and the
other comparisons succeed as told from these three. Of such arrays none of
the three does. -/
theorem execute_comparisons_trichotomous
    (hwithin : ∀ d, limit = some d → (outer + 1).number ≤ d)
    (hpair : (s.begin tag outer).comparands? tag = some (l, r))
    (hcompare : l.compare r = .ok o) (hexact : ¬l.RoundsTogether r) :
    let succeeds c := (standard limit).Succeeds (means + 1) (tag.asComparison c) outer s
    (l.looseEq r = true ↔ o = .eq ∧ l.mixesInside r = false) ∧
    ((succeeds .less ↔ o = .lt) ∧ (succeeds .equal ↔ l.looseEq r = true) ∧
      (succeeds .greater ↔ o = .gt)) ∧
    (¬(o = .eq ∧ l.mixesInside r = true) →
      (∃ c ∈ Comparison.basic, succeeds c ∧ ∀ d ∈ Comparison.basic, succeeds d → d = c) ∧
      (succeeds .lessEqual ↔ succeeds .less ∨ succeeds .equal) ∧
      (succeeds .greaterEqual ↔ succeeds .greater ∨ succeeds .equal) ∧
      (succeeds .notEqual ↔ succeeds .less ∨ succeeds .greater)) ∧
    (o = .eq ∧ l.mixesInside r = true →
      (∀ c ∈ Comparison.basic, ¬succeeds c) ∧
      succeeds .lessEqual ∧ succeeds .greaterEqual ∧ succeeds .notEqual) := by
  intro succeeds
  have hloose := Value.looseEq_iff_compare hcompare hexact
  have hsucceeds (c : Comparison) : succeeds c ↔ c.holds l r = .ok true :=
    succeeds_asComparison_iff hwithin hpair c
  refine ⟨hloose, ?_, ?_, ?_⟩
  all_goals simp only [hsucceeds, Comparison.holds, Comparison.basic, hcompare, Except.map]
  · cases o <;> simp
  · intro hunmixed
    cases o <;> cases hequal : l.looseEq r <;> simp_all
  · rintro ⟨rfl, hmixed⟩
    cases hequal : l.looseEq r <;> simp_all

/-- What a comparison of two variables is told. -/
def comparing : Tag := ⟨"", [("key1", some "a"), ("key2", some "b")], [], .nowhere⟩

/-- A frame in which two variables hold two values. -/
def holding (l r : Value) : Frame := { blankFrame with locals := [("a", l), ("b", r)] }

theorem comparands?_holding (l r : Value) :
    ((holding l r).begin comparing 0).comparands? comparing = some (l, r) := by
  have hleft : ((holding l r).begin comparing 0).attrKey comparing "key1" = "a" := by
    show Text.trim (Scope.substitute _ _ "a") = "a"
    rw [Scope.substitute_of_pieces rfl]
    rfl
  have hright : ((holding l r).begin comparing 0).attrKey comparing "key2" = "b" := by
    show Text.trim (Scope.substitute _ _ "b") = "b"
    rw [Scope.substitute_of_pieces rfl]
    rfl
  unfold Frame.comparands?
  rw [hleft, hright]
  rfl

theorem nested_trichotomous :
    let l := Value.array [.int 1, .array [.float ⟨0x4000000000000000⟩, .int 9007199254740993]]
    let r := Value.array [.int 1, .array [.float ⟨0x4000000000000000⟩, .int 9007199254740992]]
    l.compare r = .ok .gt ∧ ¬l.RoundsTogether r ∧ l.mixesInside r = false ∧
    ∃ c ∈ Comparison.basic,
      (standard (some 1)).Succeeds 1 (comparing.asComparison c) 0 (holding l r) ∧
      ∀ d ∈ Comparison.basic,
        (standard (some 1)).Succeeds 1 (comparing.asComparison d) 0 (holding l r) → d = c := by
  intro l r
  have hcompare : l.compare r = .ok .gt := rfl
  have hexact : ¬l.RoundsTogether r := fun ⟨_, _, h, _⟩ => Value.noConfusion h
  have hunmixed : l.mixesInside r = false := rfl
  have h := @execute_comparisons_trichotomous (some 1) 0 comparing 0 (holding l r) l r .gt
    (fun _ h => Option.some.inj h ▸ by decide) (comparands?_holding l r) hcompare hexact
  exact ⟨hcompare, hexact, hunmixed, (h.2.2.1 fun h => by cases h.1).1⟩

/-- The integer one in an array. -/
def integerInside : Value := .array [.int 1]

/-- The double one in an array. -/
def doubleInside : Value := .array [.float ⟨0x3FF0000000000000⟩]

theorem compare_integerInside : integerInside.compare doubleInside = .ok .eq := rfl

/-- **Equality and order part twice.** Arrays that mix integers with doubles
have an order and are equal by it, but are not loosely equal, and none of less,
equal and greater succeeds. And integers beyond the precision of a double
may be loosely equal though one is less. -/
theorem not_forall_looseEq_iff_compare :
    (integerInside.compare doubleInside = .ok .eq ∧
      integerInside.looseEq doubleInside = false ∧
      ∀ c ∈ Comparison.basic, ¬(standard none).Succeeds 1 (comparing.asComparison c) 0
        (holding integerInside doubleInside)) ∧
    ((Value.int 9007199254740992).compare (.int 9007199254740993) = .ok .lt ∧
      (Value.int 9007199254740992).looseEq (.int 9007199254740993) = true) ∧
    ¬∀ (l r : Value) (o : Ordering), l.compare r = .ok o → (l.looseEq r = true ↔ o = .eq) := by
  have hloose : integerInside.looseEq doubleInside = false := rfl
  refine ⟨⟨compare_integerInside, hloose, fun c hc => ?_⟩, ⟨rfl, by decide +kernel⟩, fun h => ?_⟩
  · rw [succeeds_asComparison_iff (fun _ h => by cases h) (comparands?_holding _ _)]
    simp only [Comparison.basic, List.mem_cons, List.not_mem_nil, or_false] at hc
    obtain rfl | rfl | rfl := hc <;>
      simp [Comparison.holds, compare_integerInside, hloose, Except.map]
  · have hequal := (h integerInside doubleInside .eq compare_integerInside).2 rfl
    exact Bool.false_ne_true (hloose.symm.trans hequal)

end Engine

end TagScript
