import TagScript.Proofs.Handling
import TagScript.Proofs.Reading
import TagScript.Proofs.Sequence
import TagScript.Proofs.Substitution
import TagScript.Proofs.Veil

/-!
# Assertions and their complements

Each assertion has a complement, which is told by its name. The two execute the
tags inside them by one and the same rule: both go on as long as what a tag
yields keeps the answer open, and only what they make of the answer is opposite
(`Engine.paired_allPass`, `Engine.paired_assertion`, `Engine.paired_membership`).

The complement is also the negation of the assertion, but it is executed where the
negation is and not inside it. So the two runs differ in the depths that their
tags bind, and they may differ in the time; both are hidden by a `Veil`. Behind
it lie the attributes of the assertion as well, since a tag binds its depth before
it reads them (`Engine.own_attributes_are_consulted`).

All this is about runs in which no tag faults: a fault is a falsy value to the tag
around it, and an assertion that faults itself yields the same under both names.
-/

namespace TagScript

/-- **The names of assertions, each with that of its complement.** -/
def complements : List (String × String) :=
  [("assert", "assert_not"), ("assert_not", "assert"), ("assert_in", "assert_not_in"),
    ("assert_not_in", "assert_in")]

/-- The tag under another name. -/
def Tag.renamed (tag : Tag) (name : String) : Tag := { tag with name }

/-- The same execution under another name of its tag. -/
def Execution.under (x : Execution) (name : String) : Execution :=
  { x with tag := x.tag.renamed name }

/-- **A run in which no tag faults.** -/
def Execution.Sound (limit : Option Nat) (x : Execution) : Prop :=
  ∀ names y, (Engine.standard limit).Encloses x names y →
    ∀ fault u, (Engine.standard limit).insideOf y ≠ .failed fault u

/-- **Outcomes that are opposite truth values.** -/
def Outcome.Opposite (first second : Outcome) : Prop :=
  ∃ b : Bool, first = .ofBool b ∧ second = .ofBool !b

/-- An attribute that has to be there and is not makes its tag fault. -/
theorem Run.requireKey_of_isEmpty {tag : Tag} {name : String} {s : Frame}
    (h : (s.attrKey tag name).isEmpty = true) :
    Run.requireKey tag name s = .failed (.of (.attributeMissing tag.name name)) s := by
  unfold Run.requireKey
  rw [Run.bind_attrKey, if_pos h]
  rfl

namespace Veil

/-- Nothing is hidden but the trace and the journal. -/
def clear (cutoff : Frame) : Veil := ⟨[], 0, cutoff, List.nil_subset _, fun _ => rfl⟩

/-- What each tag binds is hidden, and the first run is one deeper. -/
def deeper (cutoff : Frame) : Veil :=
  ⟨[Reserved.depth, Reserved.logDatetime], 1, cutoff, List.Subset.refl _,
    fun hseen => absurd List.mem_cons_self hseen⟩

variable {V : Veil} {depth depth' : Depth} {tags : List Tag} {s t : Frame} {α α' β β' : Type}
  {W : α → α' → Prop} {W' : β → β' → Prop}

/-- **Computations that execute the same tags** at two depths: the first of
some tags, up to one of them, as far as the journals are to tell. -/
structure Paired (V : Veil) (depth depth' : Depth) (tags : List Tag) (s t : Frame)
    (W : α → α' → Prop) (x : Ending α) (y : Ending α') : Prop where
  /-- They end in accord. -/
  ends : V.accord.Endings W x y
  /-- They enter the same tags. -/
  enters (h : x ≠ .exhausted V.cutoff) : ∃ before, before <+: tags ∧
    s.world.Enters depth before x.after.world ∧ t.world.Enters depth' before y.after.world

theorem Paired.pure {a : α} {b : α'} (h : V.Frames s t) (hW : W a b) :
    V.Paired depth depth' tags s t W ((Pure.pure a : Run α) s) ((Pure.pure b : Run α') t) where
  ends := .pure h hW
  enters _ := ⟨[], List.nil_prefix, .refl _ _, .refl _ _⟩

/-- A tag is executed before. -/
theorem Paired.next {child : Tag} {u v : Frame} {x : Ending α} {y : Ending α'}
    (h : V.Paired depth depth' tags u v W x y) (hs : s.world.Enters depth [child] u.world)
    (ht : t.world.Enters depth' [child] v.world) :
    V.Paired depth depth' (child :: tags) s t W x y where
  ends := h.ends
  enters hne := by
    obtain ⟨before, hprefix, hu, hv⟩ := h.enters hne
    exact ⟨child :: before, List.cons_prefix_cons.2 ⟨rfl, hprefix⟩, hs.trans hu, ht.trans hv⟩

theorem after_map (x : Run α) (f : α → β) (s : Frame) :
    ((x >>= fun a => Pure.pure (f a)) s).after = (x s).after := by
  rw [Run.bind_apply]
  cases x s <;> rfl

/-- Something is made of the results. -/
theorem Paired.map {x : Run α} {y : Run α'} (h : V.Paired depth depth' tags s t W (x s) (y t))
    {f : α → β} {g : α' → β'} (hW : ∀ a b, W a b → W' (f a) (g b)) :
    V.Paired depth depth' tags s t W' ((x >>= fun a => Pure.pure (f a)) s)
      ((y >>= fun b => Pure.pure (g b)) t) where
  ends := h.ends.bind fun a b _ _ hab h => .pure h (hW a b hab)
  enters hne := by
    rw [after_map, after_map]
    exact h.enters fun hcut => hne (Run.bind_of_exhausted hcut _)

end Veil

namespace Engine

variable {limit : Option Nat}

/-- An execution enters its own tag, unless no means are left for it. -/
theorem exists_enters_execute (limit : Option Nat) (means : Nat) (child : Tag) :
    ∃ entered, entered <+: [child] ∧
      (∀ (depth : Depth) (s : Frame),
        s.world.Enters (depth + 1) entered
          ((standard limit).execute means child depth s).after.world) ∧
      ∀ (depth : Depth) (s u : Frame) (outcome : Outcome),
        (standard limit).execute means child depth s = .done outcome u → entered = [child] := by
  cases means with
  | zero => exact ⟨[], List.nil_prefix, fun _ _ => .refl _ _, fun _ _ _ _ h => by cases h⟩
  | succ means =>
    exact ⟨[child], List.prefix_rfl, fun depth s => enters_execute means child depth s,
      fun _ _ _ _ _ => rfl⟩

section Runners

variable {V : Veil} {a : Tag} {other : String} {depth depth' : Depth}
  {exec : Tag → Depth → Run Outcome} {means rounds : Nat} {s t : Frame}
  (hexec : ∀ child depth s, exec child depth s = .exhausted V.cutoff ∨
    exec child depth s = (standard limit).execute means child depth s ∧
      ∀ t, V.Frames s t → V.accord.Endings Eq (exec child depth s)
        ((standard limit).execute means child (depth - V.shift) t))
  (hdepth : depth - V.shift = depth') (h : V.Frames s t)
include hexec hdepth h

/-- **Tags are executed up to the first that fails a test.** -/
theorem paired_allPass (b : Tag) (test : Value → Bool) (tags : List Tag) :
    V.Paired (depth + 1) (depth' + 1) tags s t Eq
      (Runner.allPass ⟨a, depth, exec, rounds⟩ test tags s)
      (Runner.allPass ⟨b, depth', (standard limit).execute means, rounds⟩ test tags t) := by
  subst hdepth
  induction tags generalizing s t with
  | nil => exact .pure h rfl
  | cons child rest ih =>
    obtain hcut | ⟨hreal, hveiled⟩ := hexec child depth s
    · have hends : Runner.allPass ⟨a, depth, exec, rounds⟩ test (child :: rest) s =
          .exhausted V.cutoff := Run.bind_of_exhausted hcut _
      rw [hends]
      exact ⟨.free rfl _, fun hne => absurd rfl hne⟩
    · obtain ⟨entered, hprefix, henters, hall⟩ := exists_enters_execute limit means child
      have hs := henters depth s
      have hdone := hall depth s
      rw [← hreal] at hs hdone
      have ht := henters (depth - V.shift) t
      have hends := hveiled t h
      have hwhole : entered <+: child :: rest := hprefix.trans ⟨rest, rfl⟩
      unfold Runner.allPass
      rw [Run.bind_apply, Run.bind_apply]
      dsimp only [Site.run]
      revert hs hdone ht hends
      generalize exec child depth s = first
      generalize (standard limit).execute means child (depth - V.shift) t = second
      intro hs hdone ht hends
      cases hends with
      | @done outcome outcome' u v houtcome h' =>
        obtain rfl : outcome = outcome' := houtcome
        obtain rfl := hdone u outcome rfl
        dsimp only
        split
        · exact (ih h').next hs ht
        · exact Veil.Paired.next (.pure h' rfl) hs ht
      | failed hcause h' => exact ⟨.failed hcause h', fun _ => ⟨entered, hwhole, hs, ht⟩⟩
      | exhausted h' => exact ⟨.exhausted h', fun _ => ⟨entered, hwhole, hs, ht⟩⟩
      | free hfree _ => exact ⟨.free hfree _, fun hne => absurd (congrArg _ hfree) hne⟩

variable (hsees : V.accord.Sees a s t)
include hsees

/-- **An assertion and its complement.** -/
theorem paired_assertion (hname : a.name ∈ ["assert", "assert_not"]) (negated : Bool)
    (hsound : ∀ fault u, Runner.assertion negated ⟨a, depth, exec, rounds⟩ s ≠ .failed fault u) :
    V.Paired (depth + 1) (depth' + 1) a.tags s t Outcome.Opposite
      (Runner.assertion negated ⟨a, depth, exec, rounds⟩ s)
      (Runner.assertion (!negated)
        ⟨a.renamed other, depth', (standard limit).execute means, rounds⟩ t) := by
  have hkey : t.attrKey (a.renamed other) "key" = s.attrKey a "key" :=
    hsees.attrKey h (.of_mem hname (by decide))
  have hvalue : t.attrText (a.renamed other) "value" = s.attrText a "value" :=
    hsees.attrText h (.of_mem hname (by decide))
  have hopposite : ∀ answer : Bool,
      Outcome.Opposite (.ofBool (answer != negated)) (.ofBool (answer != !negated)) :=
    fun answer => ⟨answer != negated, rfl, by cases answer <;> cases negated <;> rfl⟩
  unfold Runner.assertion at hsound ⊢
  rw [Run.bind_attrKey, Run.bind_attrText] at hsound ⊢
  rw [Run.bind_attrKey, Run.bind_attrText, hkey, hvalue]
  dsimp only at hsound ⊢
  split
  · have hkeyed : a.name ∈ keyedNames := (by decide : ["assert", "assert_not"] ⊆ keyedNames) hname
    have hread : t.read (s.attrKey a "key") = s.read (s.attrKey a "key") :=
      Accord.Frames.read (K := V.accord) h (hsees.values (.keyed hkeyed))
    refine Veil.Paired.pure h ?_
    dsimp only
    rw [hread]
    exact hopposite _
  · next hkeyless =>
    rw [if_neg hkeyless] at hsound
    by_cases hempty : a.tags.isEmpty = true
    · rw [if_pos hempty] at hsound
      exact absurd rfl (hsound _ _)
    · rw [if_neg hempty, if_neg (show ¬(a.renamed other).tags.isEmpty = true from hempty)]
      exact (paired_allPass hexec hdepth h _ _ _).map fun all _ hall => hall ▸ hopposite all

/-- **So it is with an assertion about a choice of values.** -/
theorem paired_membership (hname : a.name ∈ ["assert_in", "assert_not_in"]) (negated : Bool)
    (hsound : ∀ fault u, Runner.membership negated ⟨a, depth, exec, rounds⟩ s ≠ .failed fault u) :
    V.Paired (depth + 1) (depth' + 1) a.tags s t Outcome.Opposite
      (Runner.membership negated ⟨a, depth, exec, rounds⟩ s)
      (Runner.membership (!negated)
        ⟨a.renamed other, depth', (standard limit).execute means, rounds⟩ t) := by
  have hkey : t.attrKey (a.renamed other) "key" = s.attrKey a "key" :=
    hsees.attrKey h (.of_mem hname (by decide))
  have hopposite : ∀ answer : Bool,
      Outcome.Opposite (.ofBool (answer == negated)) (.ofBool (answer == !negated)) :=
    fun answer => ⟨answer == negated, rfl, by cases answer <;> cases negated <;> rfl⟩
  have hread : t.read (s.attrKey a "key") = s.read (s.attrKey a "key") := by
    refine Accord.Frames.read (K := V.accord) h (hsees.values (.keyed ?_))
    exact (by decide : ["assert_in", "assert_not_in"] ⊆ keyedNames) hname
  have hlook (u : Frame) : Run.read (s.attrKey a "key") u = .done (u.read (s.attrKey a "key")) u :=
    rfl
  unfold Runner.membership at hsound ⊢
  by_cases hnamed : (s.attrKey a "key").isEmpty = true
  · exact absurd (Run.bind_of_failed (Run.requireKey_of_isEmpty hnamed) _) (hsound _ _)
  have hnamed : (s.attrKey a "key").isEmpty = false := by simpa using hnamed
  rw [Run.bind_of_done (Run.requireKey_of_attrKey rfl hnamed)] at hsound ⊢
  rw [Run.bind_of_done (Run.requireKey_of_attrKey hkey hnamed)]
  dsimp only at hsound ⊢
  by_cases hempty : a.tags.isEmpty = true
  · rw [if_pos hempty] at hsound
    exact absurd rfl (hsound _ _)
  · rw [if_neg hempty, if_neg (show ¬(a.renamed other).tags.isEmpty = true from hempty),
      Run.bind_of_done (hlook s), Run.bind_of_done (hlook t), hread]
    exact (paired_allPass hexec hdepth h _ _ _).map fun none _ hnone => hnone ▸ hopposite none

end Runners

variable {V : Veil} {x y : Execution} {other : String} {t : Frame}

/-- The two kinds of assertions that have complements. -/
theorem exists_negated_of_mem_complements {name : String} (h : (name, other) ∈ complements) :
    ∃ negated : Bool,
      (name ∈ ["assert", "assert_not"] ∧ (name, Runner.assertion negated) ∈ builtins ∧
        (other, Runner.assertion (!negated)) ∈ builtins) ∨
      (name ∈ ["assert_in", "assert_not_in"] ∧ (name, Runner.membership negated) ∈ builtins ∧
        (other, Runner.membership (!negated)) ∈ builtins) := by
  simp only [complements, List.mem_cons, Prod.mk.injEq, List.not_mem_nil, or_false] at h
  obtain ⟨rfl, rfl⟩ | ⟨rfl, rfl⟩ | ⟨rfl, rfl⟩ | ⟨rfl, rfl⟩ := h
  · exact ⟨false, .inl ⟨by decide, by simp [builtins], by simp [builtins]⟩⟩
  · exact ⟨true, .inl ⟨by decide, by simp [builtins], by simp [builtins]⟩⟩
  · exact ⟨false, .inr ⟨by decide, by simp [builtins], by simp [builtins]⟩⟩
  · exact ⟨true, .inr ⟨by decide, by simp [builtins], by simp [builtins]⟩⟩

/-- **An assertion and its complement, executed behind a veil**: they execute the same
tags and yield opposite truth values. -/
theorem paired_ending (hcomplement : (x.tag.name, other) ∈ complements)
    (hx : x.Respects limit V) (hasked : ∀ z, (standard limit).Executes x z → z.Veiled limit V)
    (h : V.Frames x.frame t) :
    V.Paired (x.outer + 1 + 1) (x.outer - V.shift + 1 + 1) x.tag.tags x.frame t Outcome.Opposite
      ((standard limit).ending x)
      ((standard limit).execute (x.means + 1) (x.tag.renamed other) (x.outer - V.shift) t) := by
  obtain ⟨exec, hexec, hruns⟩ := exists_exec_of_veiled hasked
  have hdepth : x.outer + 1 - V.shift = x.outer - V.shift + 1 := Int.add_right_comm _ _ _
  have hentered := h.enter x.tag (x.tag.renamed other) (x.outer + 1) (x.outer - V.shift + 1)
    fun hseen => by rw [V.level hseen, Int.sub_zero]
  have hinvoked := hentered.invoke x.tag (x.tag.renamed other) (x.outer + 1)
    (x.outer - V.shift + 1)
  have hwithin := within_of_sound hx.sound
  have hsees := Veil.sees hinvoked hx.consults
  have hsound := hx.sound
  rw [← hruns] at hsound
  have hinside : V.Paired (x.outer + 1 + 1) (x.outer - V.shift + 1 + 1) x.tag.tags x.start
      (t.begin (x.tag.renamed other) (x.outer - V.shift)) Outcome.Opposite
      ((standard limit).insideOf x) ((standard limit).dispatch
        ((standard limit).site x.means (x.tag.renamed other) (x.outer - V.shift))
        (t.enter (x.tag.renamed other) (x.outer - V.shift + 1))) := by
    rw [← hruns]
    obtain ⟨negated, ⟨hname, hplain, hother⟩ | ⟨hname, hplain, hother⟩⟩ :=
      exists_negated_of_mem_complements hcomplement
    · rw [dispatch_of_mem_within hplain hwithin] at hsound ⊢
      unfold site
      rw [dispatch_of_mem_within hother hx.within]
      exact paired_assertion hexec hdepth hinvoked hsees hname negated hsound
    · rw [dispatch_of_mem_within hplain hwithin] at hsound ⊢
      unfold site
      rw [dispatch_of_mem_within hother hx.within]
      exact paired_membership hexec hdepth hinvoked hsees hname negated hsound
  refine ⟨Veil.boundary hinside.ends hx.sound, fun hne => ?_⟩
  obtain ⟨before, hprefix, hfirst, hsecond⟩ :=
    hinside.enters fun hcut => hne (boundary_of_exhausted hcut)
  -- their own entries are not as deep
  have hentry (tag : Tag) (depth : Depth) (u : Frame) {body : Run Outcome}
      (hbody : (u.begin tag depth).world.Enters (depth + 1 + 1) before
        (body (u.enter tag (depth + 1))).after.world) :
      u.world.Enters (depth + 1 + 1) before
        (TagScript.boundary tag (depth + 1) body u).after.world := by
    have hboundary := enters_boundary ((Frame.enters_invoke _ tag _ (depth + 1)).trans hbody)
    rwa [if_neg (Int.ne_of_lt (Int.lt_add_one_of_le (Int.le_refl _)))] at hboundary
  exact ⟨before, hprefix, hentry x.tag x.outer x.frame hfirst,
    hentry (x.tag.renamed other) (x.outer - V.shift) t hsecond⟩

/-- In the end one of the two is the truth value that the other is not, or both are cut
off. -/
theorem opposite_of_ends {first second : Ending Outcome}
    (h : V.accord.Endings Outcome.Opposite first second)
    (hfailed : ∀ fault u, first ≠ .failed fault u) (hcut : first.after ≠ V.cutoff) :
    (∃ (answer : Bool) (u v : Frame), first = .done (.ofBool answer) u ∧
      second = .done (.ofBool !answer) v) ∨
    ∃ u v, first = .exhausted u ∧ second = .exhausted v := by
  cases h with
  | @done outcome outcome' u v houtcome _ =>
    obtain ⟨answer, rfl, rfl⟩ := houtcome
    exact .inl ⟨answer, u, v, rfl, rfl⟩
  | failed _ _ => exact absurd rfl (hfailed _ _)
  | @exhausted u v _ => exact .inr ⟨u, v, rfl, rfl⟩
  | free hfree _ => exact absurd hfree hcut

/-- What is asked for in a run that does not look behind a veil is veiled. -/
theorem veiled_of_executes
    (h : ∀ names y, (standard limit).Encloses x names y → y.Respects limit V) (z : Execution)
    (hz : (standard limit).Executes x z) : z.Veiled limit V :=
  veiled_of_respects fun _ y hy => h _ y (hz.encloses hy)

/-! ## Negation -/

section Negation

variable {n : Execution} {plain : Tag}

/-- **A negation executes the first tag inside it.** -/
theorem insideOf_negation (hname : n.tag.name = "not") (hfirst : n.tag.firstTag? = some plain)
    (hwithin : ∀ d, limit = some d → (n.outer + 1).number ≤ d) :
    (standard limit).insideOf n =
      ((standard limit).execute n.means plain (n.outer + 1) >>= fun outcome =>
        pure (.ofBool !outcome.truthy)) n.start := by
  have hmem : (n.tag.name, Runner.negation) ∈ builtins := by simp [builtins, hname]
  unfold insideOf
  rw [inside_of_mem hmem hwithin]
  unfold Runner.negation
  dsimp only [site]
  rw [hfirst]
  rfl

/-- The tag inside is asked for. -/
theorem executes_of_negation (hname : n.tag.name = "not") (hfirst : n.tag.firstTag? = some plain)
    (hwithin : ∀ d, limit = some d → (n.outer + 1).number ≤ d) {means : Nat}
    (hmeans : n.means = means + 1) :
    (standard limit).Executes n ⟨plain, n.outer + 1, n.start, means⟩ where
  means := hmeans
  asks u other hcut _ := by
    have hmem : (n.tag.name, Runner.negation) ∈ builtins := by simp [builtins, hname]
    dsimp only
    rw [dispatch_of_mem_within hmem hwithin]
    unfold Runner.negation
    dsimp only
    rw [hfirst]
    exact Run.bind_of_exhausted hcut _

end Negation

/-- **Where no tag faults**, an assertion and its complement do the same and yield
opposite truth values. -/
theorem paired_under (hcomplement : (x.tag.name, other) ∈ complements) (hsound : x.Sound limit)
    (cutoff : Frame) :
    (Veil.clear cutoff).Paired (x.outer + 1 + 1) (x.outer + 1 + 1) x.tag.tags x.frame x.frame
      Outcome.Opposite ((standard limit).ending x) ((standard limit).ending (x.under other)) := by
  have hrespects : ∀ names y, (standard limit).Encloses x names y →
      y.Respects limit (Veil.clear cutoff) := fun names y hy =>
    { sound := hsound names y hy
      within := fun d hlimit => by
        show (y.outer - 0 + 1).number ≤ d
        rw [Int.sub_zero]
        exact within_of_sound (hsound names y hy) d hlimit
      consults := fun _ hkey => absurd hkey List.not_mem_nil }
  have hpaired := paired_ending hcomplement (hrespects [] x .outermost)
    (veiled_of_executes hrespects) (Veil.Frames.refl x.frame)
  have hlevel : x.outer - (Veil.clear cutoff).shift = x.outer := Int.sub_zero _
  rw [hlevel] at hpaired
  exact hpaired

section Negation

variable {n : Execution} {plain : Tag} (hname : n.tag.name = "not")
  (hfirst : n.tag.firstTag? = some plain) (hsound : n.Sound limit)
  (hconsults : ∀ names y, (standard limit).Encloses n names y →
    ∀ key ∈ [Reserved.depth, Reserved.logDatetime], ¬y.tag.Consults y.start key)
include hname hfirst hsound hconsults

/-- **In a negation** an assertion is one deeper than its complement in its place, and
later. -/
theorem paired_of_negation (hcomplement : (plain.name, other) ∈ complements) {means : Nat}
    (hmeans : n.means = means + 1) (clock : String) (cutoff : Frame) :
    (Veil.deeper cutoff).accord.Endings Outcome.Opposite
      ((standard limit).execute n.means plain (n.outer + 1) n.start)
      ((standard limit).execute n.means (plain.renamed other) n.outer
        { n.frame with world := { n.frame.world with clock } }) := by
  have hwithin := within_of_sound (hsound [] n .outermost)
  have hinner := executes_of_negation hname hfirst hwithin hmeans
  have hrespects : ∀ names y,
      (standard limit).Encloses ⟨plain, n.outer + 1, n.start, means⟩ names y →
      y.Respects limit (Veil.deeper cutoff) := fun names y hy =>
    { sound := hsound _ y (hinner.encloses hy)
      within := fun d hlimit => by
        have hparent : (y.outer).number ≤ d := by
          cases hy with
          | outermost => exact hwithin d hlimit
          | @inner names z y hz hzy =>
            rw [hzy.outer_eq]
            exact within_of_sound (hsound _ z (hinner.encloses hz)) d hlimit
        show (y.outer - 1 + 1).number ≤ d
        rwa [Int.sub_add_cancel]
      consults := hconsults _ y (hinner.encloses hy) }
  have hframes : (Veil.deeper cutoff).Frames n.start
      { n.frame with world := { n.frame.world with clock } } := by
    have htime : Reserved.logDatetime ∈ (Veil.deeper cutoff).hidden :=
      List.mem_cons_of_mem _ List.mem_cons_self
    have hlater : (Veil.deeper cutoff).Frames n.frame
        { n.frame with world := { n.frame.world with clock } } :=
      ⟨fun _ _ => rfl, fun _ => rfl, rfl, rfl, rfl, rfl, rfl, rfl, rfl, rfl, rfl,
        fun hseen => absurd htime hseen⟩
    exact hlater.begin_left n.tag List.mem_cons_self htime n.outer
  have hpaired := paired_ending (x := ⟨plain, n.outer + 1, n.start, means⟩) hcomplement
    (hrespects [] _ .outermost) (veiled_of_executes hrespects) hframes
  have hlevel : n.outer + 1 - (Veil.deeper cutoff).shift = n.outer := Int.add_sub_cancel _ _
  have hends := hpaired.ends
  rw [hlevel] at hends
  rw [hmeans]
  exact hends

end Negation

/-- **Complements are opposite, and negation makes them equal.** Take an assertion in
whose run no tag faults, under one of the four names. Under the name of its complement
and with the same means it executes the same of the tags inside it, up to the same one,
and leaves the same local and global variables, procedures and files; it is cut off if
the assertion is, and otherwise yields the opposite truth value.

Take a negation in whose run no tag faults, and none consults the depth or the time, the
assertion inside it included. The complement of that assertion, executed in place of the
negation and maybe at another time, yields the same truth value as the negation does, or
is cut off as it is. -/
theorem complements_are_opposite (limit : Option Nat) (other : String) :
    (∀ x : Execution, (x.tag.name, other) ∈ complements → x.Sound limit →
      ((∃ (answer : Bool) (u v : Frame), (standard limit).ending x = .done (.ofBool answer) u ∧
          (standard limit).ending (x.under other) = .done (.ofBool !answer) v) ∨
        ∃ u v, (standard limit).ending x = .exhausted u ∧
          (standard limit).ending (x.under other) = .exhausted v) ∧
      (∃ before, before <+: x.tag.tags ∧
        x.frame.world.Enters (x.outer + 1 + 1) before ((standard limit).ending x).after.world ∧
        x.frame.world.Enters (x.outer + 1 + 1) before
          ((standard limit).ending (x.under other)).after.world) ∧
      ((standard limit).ending (x.under other)).after.locals =
        ((standard limit).ending x).after.locals ∧
      ((standard limit).ending (x.under other)).after.world.globals =
        ((standard limit).ending x).after.world.globals ∧
      ((standard limit).ending (x.under other)).after.world.procedures =
        ((standard limit).ending x).after.world.procedures ∧
      ((standard limit).ending (x.under other)).after.world.files =
        ((standard limit).ending x).after.world.files) ∧
    ∀ (n : Execution) (plain : Tag) (clock : String), n.tag.name = "not" →
      n.tag.firstTag? = some plain → (plain.name, other) ∈ complements → n.Sound limit →
      (∀ names y, (standard limit).Encloses n names y →
        ∀ key ∈ [Reserved.depth, Reserved.logDatetime], ¬y.tag.Consults y.start key) →
      (∃ (answer : Bool) (u v : Frame), (standard limit).ending n = .done (.ofBool answer) u ∧
        (standard limit).execute n.means (plain.renamed other) n.outer
          { n.frame with world := { n.frame.world with clock } } = .done (.ofBool answer) v) ∨
      ∃ u v, (standard limit).ending n = .exhausted u ∧
        (standard limit).execute n.means (plain.renamed other) n.outer
          { n.frame with world := { n.frame.world with clock } } = .exhausted v := by
  refine ⟨fun x hcomplement hsound => ?_,
    fun n plain clock hname hfirst hcomplement hsound hconsults => ?_⟩
  · obtain ⟨cutoff, hcutoff⟩ := exists_frame_ne ((standard limit).ending x).after
    have hpaired := paired_under hcomplement hsound cutoff
    have hafter : (Veil.clear cutoff).Frames ((standard limit).ending x).after
        ((standard limit).ending (x.under other)).after := hpaired.ends.frames hcutoff.symm
    exact ⟨opposite_of_ends hpaired.ends (fun _ _ => execute_ne_failed _ _ _ _ _ _ _) hcutoff.symm,
      hpaired.enters fun hcut => hcutoff (congrArg Ending.after hcut).symm, hafter.same rfl,
      hafter.globals, hafter.procedures, hafter.files⟩
  · have hinside := insideOf_negation hname hfirst (within_of_sound (hsound [] n .outermost))
    cases hmeans : n.means with
    | zero =>
      rw [hmeans] at hinside
      exact .inr ⟨_, _, boundary_of_exhausted hinside, rfl⟩
    | succ means =>
      obtain ⟨cutoff, hcutoff⟩ :=
        exists_frame_ne ((standard limit).execute n.means plain (n.outer + 1) n.start).after
      have hends := paired_of_negation hname hfirst hsound hconsults hcomplement hmeans clock cutoff
      rw [hmeans] at hinside hends hcutoff
      obtain ⟨answer, u, v, hplain, hother⟩ | ⟨u, v, hplain, hother⟩ :=
        opposite_of_ends hends (fun _ _ => execute_ne_failed _ _ _ _ _ _ _) hcutoff.symm
      · rw [Run.bind_of_done hplain] at hinside
        exact .inl ⟨!answer, _, v, boundary_of_done hinside, hother⟩
      · rw [Run.bind_of_exhausted hplain] at hinside
        exact .inr ⟨_, v, boundary_of_exhausted hinside, hother⟩

/-! ## What does not fault -/

/-- Nothing that is executed lets a fault out. -/
theorem allPass_ne_failed {site : Site}
    (hexec : ∀ child s fault u, site.run child s ≠ .failed fault u) (test : Value → Bool)
    (tags : List Tag) (s : Frame) (fault : Fault) (u : Frame) :
    Runner.allPass site test tags s ≠ .failed fault u := by
  induction tags generalizing s with
  | nil => exact nofun
  | cons child rest ih =>
    intro hfailed
    obtain hchild | ⟨outcome, t, _, hrest⟩ := Run.bind_eq_failed.1 hfailed
    · exact hexec child s fault u hchild
    · split at hrest
      · exact ih t hrest
      · cases hrest

section NoFault

variable (hwithin : ∀ d, limit = some d → (y.outer + 1).number ≤ d) (fault : Fault) (u : Frame)
include hwithin

/-- An assertion about a variable or about tags inside it does not fault. -/
theorem insideOf_assertion_ne_failed {negated : Bool}
    (hmem : (y.tag.name, Runner.assertion negated) ∈ builtins)
    (hasserts : (y.start.attrKey y.tag "key").isEmpty = false ∨ y.tag.tags.isEmpty = false) :
    (standard limit).insideOf y ≠ .failed fault u := by
  unfold insideOf
  rw [inside_of_mem hmem hwithin]
  unfold Runner.assertion
  rw [Run.bind_attrKey, Run.bind_attrText]
  dsimp only [site]
  intro hfailed
  split at hfailed
  · cases hfailed
  · next hkeyless =>
    rw [if_neg (by simpa using hasserts.resolve_left (by simpa using hkeyless))] at hfailed
    obtain hall | ⟨_, _, _, hpure⟩ := Run.bind_eq_failed.1 hfailed
    · refine @allPass_ne_failed ⟨y.tag, y.outer + 1, (standard limit).execute y.means, y.means⟩
        (fun child s fault u => ?_) _ _ _ _ _ hall
      exact execute_ne_failed (standard limit) y.means child (y.outer + 1) s u fault
    · cases hpure

/-- Nor does the negation of a tag. -/
theorem insideOf_negation_ne_failed {plain : Tag} (hname : y.tag.name = "not")
    (hfirst : y.tag.firstTag? = some plain) : (standard limit).insideOf y ≠ .failed fault u := by
  rw [insideOf_negation hname hfirst hwithin]
  intro hfailed
  obtain hinner | ⟨_, _, _, hpure⟩ := Run.bind_eq_failed.1 hfailed
  · exact execute_ne_failed _ _ _ _ _ _ _ hinner
  · cases hpure

/-- Nor does a tag that is given what it is to yield. -/
theorem insideOf_reading_ne_failed {text : String} (hname : y.tag.name = "get")
    (hkey : y.tag.attr "key" = none) (hgiven : y.tag.attr "defvalue" = some text) :
    (standard limit).insideOf y ≠ .failed fault u := by
  have hmem : (y.tag.name, Runner.reading) ∈ builtins := by simp [builtins, hname]
  have hempty : (y.start.attrKey y.tag "key").isEmpty = true := by
    unfold Frame.attrKey Frame.attrText
    rw [hkey]
    rfl
  unfold insideOf
  rw [inside_of_mem hmem hwithin]
  unfold Runner.reading
  rw [Run.bind_attrKey, Run.bind_attrText]
  dsimp only [site]
  rw [if_pos hempty, Frame.attrText, hgiven]
  exact fun hfailed => by cases hfailed

end NoFault

/-! ## An example -/

/-- A tag that yields a text. -/
def yielding (text : String) : Tag := ⟨"get", [("defvalue", some text)], [], .nowhere⟩

/-- An assertion that the second of three tags does not meet. -/
def assertingThree : Tag :=
  ⟨"assert", [("value", some "a")], [.tag (yielding "a"), .tag (yielding "b"), .tag (yielding "c")],
    .nowhere⟩

/-- The negation of a tag. -/
def negating (tag : Tag) : Tag := ⟨"not", [], [.tag tag], .nowhere⟩

/-- A tag whose attributes have no markers consults what it looks up and no more. -/
theorem not_consults_of_looksUp {tag : Tag} {start : Frame} {key : String}
    (htexts : ∀ entry ∈ tag.attrs, ∀ text ∈ entry.2, '$' ∉ text.toList)
    (hlooks : ¬tag.LooksUp start key) : ¬tag.Consults start key := by
  intro hconsults
  cases hconsults with
  | text _ hattr hmarker =>
    have hfree := Scope.markerFree_of_notMem (htexts _ hattr _ rfl)
    rw [Scope.pieces_of_markerFree hfree] at hmarker
    obtain ⟨_, _, hchar⟩ := List.mem_map.1 hmarker
    cases hchar
  | name h => exact hlooks h

/-- Tags without a key look nothing up, if they are of these names. -/
theorem not_looksUp_of_attr_eq_none {tag : Tag} {start : Frame} {key : String}
    (hname : tag.name ∈ ["not", "assert", "get"]) (hkey : tag.attr "key" = none) (hne : key ≠ "") :
    ¬tag.LooksUp start key := by
  have hother : tag.name ∉ "iter_make" :: "output" :: "cond_call" :: "template" :: operatorNames :=
    (by decide : ∀ n ∈ ["not", "assert", "get"],
      n ∉ "iter_make" :: "output" :: "cond_call" :: "template" :: operatorNames) _ hname
  intro hlooks
  cases hlooks with
  | keyed _ =>
    refine hne ?_
    unfold Frame.attrKey Frame.attrText
    rw [hkey]
    rfl
  | operand h => simp [h] at hother
  | source h | column h | switch h | placeholder h => simp [h] at hother

/-- No tag of its negation faults in any frame or consults what each tag binds. -/
theorem mem_negating_assertingThree (hy : y.tag ∈ (negating assertingThree).withAll) :
    (∀ fault u, (standard none).insideOf y ≠ .failed fault u) ∧
      ∀ key ∈ [Reserved.depth, Reserved.logDatetime], ¬y.tag.Consults y.start key := by
  have hwithin : ∀ d, (none : Option Nat) = some d → (y.outer + 1).number ≤ d := nofun
  have hkeys : ∀ key ∈ [Reserved.depth, Reserved.logDatetime], key ≠ "" := by decide
  have hplain : ∀ tag ∈ (negating assertingThree).withAll,
      tag.name ∈ ["not", "assert", "get"] ∧ tag.attr "key" = none ∧
        ∀ entry ∈ tag.attrs, ∀ text ∈ entry.2, '$' ∉ text.toList := by
    decide
  obtain ⟨hname, hkey, htexts⟩ := hplain _ hy
  refine ⟨fun fault u => ?_, fun key hmem =>
    not_consults_of_looksUp htexts (not_looksUp_of_attr_eq_none hname hkey (hkeys key hmem))⟩
  obtain ⟨tag, outer, frame, means⟩ := y
  have hmem : tag ∈ [negating assertingThree, assertingThree, yielding "a", yielding "b",
    yielding "c"] := hy
  simp only [List.mem_cons, List.not_mem_nil, or_false] at hmem
  obtain rfl | rfl | rfl | rfl | rfl := hmem
  · exact insideOf_negation_ne_failed hwithin fault u rfl rfl
  · have hassertion : (assertingThree.name, Runner.assertion false) ∈ builtins := by
      simp [builtins, assertingThree]
    exact insideOf_assertion_ne_failed hwithin fault u hassertion (.inr rfl)
  · exact insideOf_reading_ne_failed hwithin fault u rfl rfl rfl
  · exact insideOf_reading_ne_failed hwithin fault u rfl rfl rfl
  · exact insideOf_reading_ne_failed hwithin fault u rfl rfl rfl

/-- Its execution, -/
def ofAsserting : Execution := ⟨assertingThree, 0, blankFrame, 1⟩

/-- and that of its negation. -/
def ofNegating : Execution := ⟨negating assertingThree, 0, blankFrame, 2⟩

/-- The assertion fails at the second tag inside it, and there its complement holds. In a
negation and at another time it says what the complement says. -/
theorem assertingThree_is_opposite :
    ("assert", "assert_not") ∈ complements ∧ ofAsserting.Sound none ∧ ofNegating.Sound none ∧
    (∀ names y, (standard none).Encloses ofNegating names y →
      ∀ key ∈ [Reserved.depth, Reserved.logDatetime], ¬y.tag.Consults y.start key) ∧
    (∃ u, (standard none).ending ofAsserting = .done (.ofBool false) u) ∧
    (∃ v, (standard none).ending (ofAsserting.under "assert_not") = .done (.ofBool true) v) ∧
    blankFrame.world.Enters 2 [yielding "a", yielding "b"]
      ((standard none).ending (ofAsserting.under "assert_not")).after.world ∧
    (∃ u, (standard none).ending ofNegating = .done (.ofBool true) u) ∧
    ∃ v, (standard none).execute 2 (assertingThree.renamed "assert_not") 0
      { blankFrame with world := { blankFrame.world with clock := "later" } } =
        .done (.ofBool true) v := by
  have hsubset : assertingThree.withAll ⊆ (negating assertingThree).withAll :=
    Tag.withAll_subset_of_mem_tags List.mem_cons_self
  have hasserting : ofAsserting.Sound none := fun names y hy =>
    (mem_negating_assertingThree (hsubset (hy.withAll_subset (by decide) y.tag.mem_withAll_self))).1
  have hnegating : ofNegating.Sound none := fun names y hy =>
    (mem_negating_assertingThree (hy.withAll_subset (by decide) y.tag.mem_withAll_self)).1
  have hconsults : ∀ names y, (standard none).Encloses ofNegating names y →
      ∀ key ∈ [Reserved.depth, Reserved.logDatetime], ¬y.tag.Consults y.start key :=
    fun names y hy =>
      (mem_negating_assertingThree (hy.withAll_subset (by decide) y.tag.mem_withAll_self)).2
  have hfalse : ∃ u, (standard none).ending ofAsserting = .done (.ofBool false) u := ⟨_, rfl⟩
  have htrue : ∃ u, (standard none).ending ofNegating = .done (.ofBool true) u := ⟨_, rfl⟩
  obtain ⟨hplain, hnegated⟩ := complements_are_opposite none "assert_not"
  obtain ⟨houtcome, ⟨before, _, hfirst, hsecond⟩, _⟩ := hplain ofAsserting (by decide) hasserting
  have hbefore : before = [yielding "a", yielding "b"] := by
    obtain ⟨added, hadded, hentered⟩ := hfirst.entered fun _ _ => rfl
    rw [← hentered, ← List.append_nil added]
    exact (congrArg (enteredAt 2) hadded).symm.trans rfl
  subst hbefore
  refine ⟨by decide, hasserting, hnegating, hconsults, hfalse, ?_, hsecond, htrue, ?_⟩
  · obtain ⟨u, hu⟩ := hfalse
    obtain ⟨answer, _, v, hends, hother⟩ | ⟨_, _, hends, _⟩ := houtcome
    · obtain rfl : answer = false :=
        congrArg Outcome.truthy (Ending.done.inj (hends.symm.trans hu)).1
      exact ⟨v, hother⟩
    · cases hends.symm.trans hu
  · obtain ⟨u, hu⟩ := htrue
    obtain ⟨answer, _, v, hends, hother⟩ | ⟨_, _, hends, _⟩ :=
      hnegated ofNegating assertingThree "later" rfl rfl (by decide) hnegating hconsults
    · obtain rfl : answer = true :=
        congrArg Outcome.truthy (Ending.done.inj (hends.symm.trans hu)).1
      exact ⟨v, hother⟩
    · cases hends.symm.trans hu

/-- An assertion about the depth at which it is executed. -/
def assertingDepth : Tag :=
  ⟨"assert", [("key", some "__depth__"), ("value", some "1")], [], .nowhere⟩

/-- The execution of its negation. -/
def ofNegatingDepth : Execution := ⟨negating assertingDepth, 0, blankFrame, 1⟩

/-- It is executed by its negation alone, and executes nothing itself. -/
theorem executes_assertingDepth (hx : x.tag ∈ (negating assertingDepth).withAll)
    (h : (standard none).Executes x y) :
    x.tag = negating assertingDepth ∧ y.tag = assertingDepth := by
  have hcases : x.tag = negating assertingDepth ∨ x.tag = assertingDepth := by
    have hmem : x.tag ∈ [negating assertingDepth, assertingDepth] := hx
    simpa using hmem
  obtain htag | htag := hcases
  · refine ⟨htag, ?_⟩
    cases htag ▸ h.leads with
    | inside hmem => simpa [negating, Tag.tags] using hmem
    | assertion hname => exact absurd hname (by decide)
    | body hname => exact absurd hname (by decide)
    | script hname => exact absurd hname (by decide)
  · exact absurd h (not_executes_of_tags_eq_nil (htag ▸ by decide) (htag ▸ rfl))

/-- **An assertion reads its own attributes one deeper** inside a negation than its
complement does in its place. So it does not suffice that no tag inside the assertion
consults the depth or the time. -/
theorem own_attributes_are_consulted :
    ¬∀ (n : Execution) (plain : Tag) (other : String), n.tag.name = "not" →
      n.tag.firstTag? = some plain → (plain.name, other) ∈ complements → n.Sound none →
      (∀ names y, (standard none).Encloses n names y → 1 < names.length →
        ∀ key ∈ [Reserved.depth, Reserved.logDatetime], ¬y.tag.Consults y.start key) →
      ∀ (answer : Bool) (u : Frame), (standard none).ending n = .done (.ofBool answer) u →
        ∃ v, (standard none).execute n.means (plain.renamed other) n.outer n.frame =
          .done (.ofBool answer) v := by
  intro hclaim
  have hinside : ∀ {names y}, (standard none).Encloses ofNegatingDepth names y →
      y.tag ∈ (negating assertingDepth).withAll := fun hy =>
    hy.withAll_subset (by decide) (Tag.mem_withAll_self _)
  have hsound : ofNegatingDepth.Sound none := fun names y hy fault u => by
    have hwithin : ∀ d, (none : Option Nat) = some d → (y.outer + 1).number ≤ d := nofun
    have hmem := hinside hy
    clear hy
    obtain ⟨tag, outer, frame, means⟩ := y
    have hcases : tag ∈ [negating assertingDepth, assertingDepth] := hmem
    simp only [List.mem_cons, List.not_mem_nil, or_false] at hcases
    obtain rfl | rfl := hcases
    · exact insideOf_negation_ne_failed hwithin fault u rfl rfl
    · have hassertion : (assertingDepth.name, Runner.assertion false) ∈ builtins := by
        simp [builtins, assertingDepth]
      have hkey : IsPlainKey "__depth__" :=
        isPlainKey_of_notMem (by decide) (by decide) (by decide)
      refine insideOf_assertion_ne_failed hwithin fault u hassertion (.inl ?_)
      rw [hkey.attrKey rfl]
      decide
  have hconsults : ∀ names y, (standard none).Encloses ofNegatingDepth names y →
      1 < names.length →
        ∀ key ∈ [Reserved.depth, Reserved.logDatetime], ¬y.tag.Consults y.start key := by
    intro names y hy hlength
    cases hy with
    | outermost => cases hlength
    | inner hz hzy =>
      cases hz with
      | outermost => exact absurd hlength (Nat.lt_irrefl 1)
      | inner hw hwz =>
        have hasserts := (executes_assertingDepth (hinside hw) hwz).2
        have hnegates := (executes_assertingDepth (hinside (hw.inner hwz)) hzy).1
        exact absurd (congrArg Tag.name (hasserts.symm.trans hnegates)) (by decide)
  have htrue : ∃ u, (standard none).ending ofNegatingDepth = .done (.ofBool true) u := ⟨_, rfl⟩
  have hfalse : ∃ v, (standard none).execute 1 (assertingDepth.renamed "assert_not") 0 blankFrame =
      .done (.ofBool false) v := ⟨_, rfl⟩
  obtain ⟨u, hu⟩ := htrue
  obtain ⟨v, hv⟩ := hfalse
  obtain ⟨w, hw⟩ := hclaim ofNegatingDepth assertingDepth "assert_not" rfl rfl (by decide) hsound
    hconsults true u hu
  have heq := (Ending.done.inj (hw.symm.trans hv)).1
  cases heq

end Engine

end TagScript
