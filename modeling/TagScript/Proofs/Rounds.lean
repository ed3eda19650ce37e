import TagScript.Proofs.Pass

/-!
# Rounds that bind variables

A block that is given several items goes over the tags inside it once for
each of them, and binds local variables for the item before it does.
`Site.Rounds` tells these rounds one by one: in which frame a round
begins, which tags it executes and what they yield, how the last one ends.
It says nothing of how a block comes to make its rounds.

Two laws follow from the relation alone. Whatever the binding fixes is
there at the beginning of every round, for one item after the other and
none left out (`Rounds.isPrefix`). And as long as no tag yields false,
there is a round for every item (`Rounds.completed_of_holds`).
-/

namespace TagScript

/-- **A round**: the frame in which it begins, and the tags it executes, each
with what it yields – nothing, if its execution does not end. -/
structure Round where
  /-- The frame in which the first tag is executed. -/
  start : Frame
  /-- The tags that are executed. -/
  executed : List (Tag × Option Outcome)

/-- Whether all tags executed in a round yield true. -/
def Round.Holds (round : Round) : Prop :=
  ∀ entry ∈ round.executed, ∃ outcome, entry.2 = some outcome ∧ outcome.truthy = true

/-- The frame after a computation on the local variables of another frame or
on a copy of them. -/
def Frame.returnTo (t : Frame) (shared : Bool) (s : Frame) : Frame :=
  if shared then t else { t with locals := s.locals }

/-- The world is that which the computation has left. -/
theorem Frame.world_returnTo (t : Frame) (shared : Bool) (s : Frame) :
    (t.returnTo shared s).world = t.world := by
  cases shared <;> rfl

/-- The frame with more local variables bound. -/
def Frame.rebind (s : Frame) (binding : Vars → Vars) : Frame := { s with locals := binding s.locals }

namespace Site

variable {γ δ : Type}

/-- **Rounds of a block**, one for each of some items, up to the first that is
not completed. -/
inductive Rounds (site : Site) (shared : Bool) (binding : γ → Vars → Vars) :
    List γ → Frame → List Round → Stop → Frame → Prop where
  /-- There is no item left. -/
  | none (s : Frame) : Rounds site shared binding [] s [] .completed s
  /-- A round in which a tag yields false is the last one. -/
  | broken {item : γ} {rest : List γ} {s t : Frame} {executed : List (Tag × Option Outcome)}
      {child : Tag} {outcome : Outcome}
      (h : site.Pass site.tag.tags (s.rebind (binding item)) executed (.broken child outcome) t) :
      Rounds site shared binding (item :: rest) s [⟨s.rebind (binding item), executed⟩]
        (.broken child outcome) (t.returnTo shared s)
  /-- So is a round in which the execution of a tag does not end. -/
  | cut {item : γ} {rest : List γ} {s t : Frame} {executed : List (Tag × Option Outcome)}
      {child : Tag} (h : site.Pass site.tag.tags (s.rebind (binding item)) executed (.cut child) t) :
      Rounds site shared binding (item :: rest) s [⟨s.rebind (binding item), executed⟩] (.cut child) t
  /-- A completed round is followed by the one for the next item. -/
  | next {item : γ} {rest : List γ} {s t u : Frame} {executed : List (Tag × Option Outcome)}
      {rounds : List Round} {stop : Stop}
      (h : site.Pass site.tag.tags (s.rebind (binding item)) executed .completed t)
      (hrest : Rounds site shared binding rest (t.returnTo shared s) rounds stop u) :
      Rounds site shared binding (item :: rest) s (⟨s.rebind (binding item), executed⟩ :: rounds) stop u

variable {site : Site} {shared : Bool} {binding : γ → Vars → Vars} {items : List γ}
variable {s t : Frame} {rounds : List Round} {stop : Stop}

/-! ## The laws of rounds -/

/-- Where no execution faults, there are rounds for all items. -/
theorem exists_rounds (hexec : ∀ child s fault t, site.run child s ≠ .failed fault t)
    (shared : Bool) (binding : γ → Vars → Vars) (items : List γ) (s : Frame) :
    ∃ rounds stop t, site.Rounds shared binding items s rounds stop t := by
  induction items generalizing s with
  | nil => exact ⟨[], .completed, s, .none s⟩
  | cons item rest ih =>
    obtain ⟨executed, stop, t, h⟩ := exists_pass hexec site.tag.tags (s.rebind (binding item))
    cases stop with
    | completed =>
      obtain ⟨rounds, stop, u, hrest⟩ := ih (t.returnTo shared s)
      exact ⟨_, stop, u, .next h hrest⟩
    | broken child outcome => exact ⟨_, _, _, .broken h⟩
    | cut child => exact ⟨_, _, _, .cut h⟩

/-- **What the binding fixes is there at the beginning of every round**, for
the first items in their order. -/
theorem Rounds.isPrefix {f : Frame → δ} {g : γ → δ}
    (hfixed : ∀ item ∈ items, ∀ s : Frame, f (s.rebind (binding item)) = g item)
    (h : site.Rounds shared binding items s rounds stop t) :
    (rounds.map fun round => f round.start) <+: items.map g := by
  induction h with
  | none s => exact List.prefix_rfl
  | @broken item rest s t executed child outcome h =>
    rw [List.map_cons, List.map_cons, hfixed item List.mem_cons_self]
    exact List.cons_prefix_cons.2 ⟨rfl, List.nil_prefix⟩
  | @cut item rest s t executed child h =>
    rw [List.map_cons, List.map_cons, hfixed item List.mem_cons_self]
    exact List.cons_prefix_cons.2 ⟨rfl, List.nil_prefix⟩
  | @next item rest s t u executed rounds stop h hrest ih =>
    rw [List.map_cons, List.map_cons, hfixed item List.mem_cons_self]
    exact List.cons_prefix_cons.2
      ⟨rfl, ih fun other hmem => hfixed other (List.mem_cons_of_mem _ hmem)⟩

/-- **A round begins with the variables bound for its item**, the first round
with those for the first item, and so on. -/
theorem Rounds.exists_start (h : site.Rounds shared binding items s rounds stop t) {n : Nat}
    {round : Round} (hn : rounds[n]? = some round) :
    ∃ item before, items[n]? = some item ∧ round.start = Frame.rebind before (binding item) := by
  induction h generalizing n with
  | none s => exact absurd hn (by simp)
  | @broken item rest s t executed child outcome h =>
    obtain ⟨rfl, rfl⟩ : n = 0 ∧ _ = round := by simpa [List.getElem?_singleton] using hn
    exact ⟨item, s, rfl, rfl⟩
  | @cut item rest s t executed child h =>
    obtain ⟨rfl, rfl⟩ : n = 0 ∧ _ = round := by simpa [List.getElem?_singleton] using hn
    exact ⟨item, s, rfl, rfl⟩
  | @next item rest s t u executed rounds stop h hrest ih =>
    cases n with
    | zero =>
      obtain rfl := Option.some.inj hn
      exact ⟨item, s, rfl, rfl⟩
    | succ n => exact ih hn

/-- Completed rounds execute all tags each. -/
theorem Rounds.map_fst_of_completed (h : site.Rounds shared binding items s rounds .completed t) :
    ∀ round ∈ rounds, round.executed.map Prod.fst = site.tag.tags := by
  generalize hstop : Stop.completed = stop at h
  induction h with
  | none s => exact fun _ hmem => absurd hmem List.not_mem_nil
  | broken h => cases hstop
  | cut h => cases hstop
  | next h hrest ih =>
    intro round hmem
    obtain rfl | hmem := List.mem_cons.1 hmem
    · exact h.map_fst_of_completed
    · exact ih hstop round hmem

/-- Items may be prepared before the rounds. -/
theorem Rounds.of_comp {prepare : δ → γ} {raw : List δ}
    (h : site.Rounds shared (fun item => binding (prepare item)) raw s rounds stop t) :
    site.Rounds shared binding (raw.map prepare) s rounds stop t := by
  induction h with
  | none s => exact .none s
  | broken h => exact .broken h
  | cut h => exact .cut h
  | next h hrest ih => exact .next h ih

/-- Tags that always yield true do so in every pass. -/
theorem Pass.holds {tags : List Tag} {executed : List (Tag × Option Outcome)}
    (htags : ∀ child ∈ tags, ∀ s, ∃ outcome t,
      site.run child s = .done outcome t ∧ outcome.truthy = true)
    (h : site.Pass tags s executed stop t) :
    ∀ entry ∈ executed, ∃ outcome, entry.2 = some outcome ∧ outcome.truthy = true := by
  induction h with
  | completed s => exact fun _ he => absurd he List.not_mem_nil
  | @broken child rest s t outcome h hstop =>
    obtain ⟨outcome', t', hrun, htruthy⟩ := htags child List.mem_cons_self s
    obtain rfl := (Ending.done.inj (h.symm.trans hrun)).1
    intro entry he
    obtain rfl := List.mem_singleton.1 he
    exact ⟨outcome, rfl, htruthy⟩
  | @cut child rest s t h =>
    obtain ⟨_, _, hrun, _⟩ := htags child List.mem_cons_self s
    cases h.symm.trans hrun
  | @next child rest s t u outcome executed stop h hgoes hrest ih =>
    obtain ⟨outcome', t', hrun, htruthy⟩ := htags child List.mem_cons_self s
    obtain rfl := (Ending.done.inj (h.symm.trans hrun)).1
    intro entry he
    obtain rfl | he := List.mem_cons.1 he
    · exact ⟨outcome, rfl, htruthy⟩
    · exact ih (fun other hmem => htags other (List.mem_cons_of_mem _ hmem)) entry he

/-- **Tags that always yield true do so in every round.** -/
theorem Rounds.holds (htags : ∀ child ∈ site.tag.tags, ∀ s, ∃ outcome t,
      site.run child s = .done outcome t ∧ outcome.truthy = true)
    (h : site.Rounds shared binding items s rounds stop t) : ∀ round ∈ rounds, round.Holds := by
  induction h with
  | none s => exact fun _ he => absurd he List.not_mem_nil
  | broken h =>
    intro round he
    obtain rfl := List.mem_singleton.1 he
    exact h.holds htags
  | cut h =>
    intro round he
    obtain rfl := List.mem_singleton.1 he
    exact h.holds htags
  | next h hrest ih =>
    intro round he
    obtain rfl | he := List.mem_cons.1 he
    · exact h.holds htags
    · exact ih round he

/-- A pass in which all tags yield true is completed. -/
theorem Pass.completed_of_holds {tags : List Tag} {executed : List (Tag × Option Outcome)}
    (hcalls : ¬site.calls) (h : site.Pass tags s executed stop t)
    (hholds : ∀ entry ∈ executed, ∃ outcome, entry.2 = some outcome ∧ outcome.truthy = true) :
    stop = .completed := by
  induction h with
  | completed s => rfl
  | broken h hstop =>
    obtain ⟨_, heq, htruthy⟩ := hholds _ List.mem_cons_self
    obtain rfl := Option.some.inj heq
    rw [goesOn_of_not_calls hcalls, htruthy] at hstop
    exact absurd hstop (by decide)
  | cut h =>
    obtain ⟨_, heq, _⟩ := hholds _ List.mem_cons_self
    cases heq
  | next h hgoes hrest ih => exact ih fun entry hmem => hholds entry (List.mem_cons_of_mem _ hmem)

/-- **As long as all tags yield true there is a round for every item.** -/
theorem Rounds.completed_of_holds (hcalls : ¬site.calls)
    (h : site.Rounds shared binding items s rounds stop t) (hholds : ∀ round ∈ rounds, round.Holds) :
    stop = .completed ∧ rounds.length = items.length := by
  induction h with
  | none s => exact ⟨rfl, rfl⟩
  | broken h => cases h.completed_of_holds hcalls (hholds _ List.mem_cons_self)
  | cut h => cases h.completed_of_holds hcalls (hholds _ List.mem_cons_self)
  | next h hrest ih =>
    obtain ⟨hstop, hlength⟩ := ih fun round hmem => hholds round (List.mem_cons_of_mem _ hmem)
    exact ⟨hstop, congrArg (· + 1) hlength⟩

/-- All tags of a completed pass have yielded true. -/
theorem Pass.holds_of_completed {tags : List Tag} {executed : List (Tag × Option Outcome)}
    (h : site.Pass tags s executed .completed t) :
    ∀ entry ∈ executed, ∃ outcome, entry.2 = some outcome ∧ outcome.truthy = true := by
  generalize hstop : Stop.completed = stop at h
  induction h with
  | completed s => exact fun _ hmem => absurd hmem List.not_mem_nil
  | broken h => cases hstop
  | cut h => cases hstop
  | next h hgoes hrest ih =>
    intro entry hmem
    obtain rfl | hmem := List.mem_cons.1 hmem
    · exact ⟨_, rfl, (Bool.and_eq_true_iff.1 hgoes).1⟩
    · exact ih hstop entry hmem

/-- A pass that breaks off has executed the tag at which it does last of all. -/
theorem Pass.getLast?_of_broken {tags : List Tag} {executed : List (Tag × Option Outcome)}
    {child : Tag} {outcome : Outcome} (h : site.Pass tags s executed (.broken child outcome) t) :
    executed.getLast? = some (child, some outcome) ∧ site.tag.goesOn child outcome = false := by
  generalize hstop : Stop.broken child outcome = stop at h
  induction h with
  | completed s => cases hstop
  | broken h hbroken =>
    cases hstop
    exact ⟨rfl, hbroken⟩
  | cut h => cases hstop
  | next h hgoes hrest ih =>
    obtain ⟨hlast, hbroken⟩ := ih hstop
    exact ⟨by simp [List.getLast?_cons, hlast], hbroken⟩

/-- **Rounds end behind the last item or in the first round that is not completed**,
which is the last one. -/
theorem Rounds.stops (hcalls : ¬site.calls)
    (h : site.Rounds shared binding items s rounds stop t) :
    (∀ round ∈ rounds.dropLast, round.executed.map Prod.fst = site.tag.tags ∧ round.Holds) ∧
    (stop = .completed → rounds.length = items.length ∧ ∀ round ∈ rounds, round.Holds) ∧
    ∀ child outcome, stop = .broken child outcome → outcome.truthy = false ∧
      ∃ last, rounds.getLast? = some last ∧ last.executed.getLast? = some (child, some outcome) := by
  induction h with
  | none s => exact ⟨nofun, fun _ => ⟨rfl, nofun⟩, nofun⟩
  | broken h =>
    refine ⟨nofun, nofun, fun child outcome hstop => ?_⟩
    cases hstop
    obtain ⟨hlast, hbroken⟩ := h.getLast?_of_broken
    rw [goesOn_of_not_calls hcalls] at hbroken
    exact ⟨hbroken, _, rfl, hlast⟩
  | cut h => exact ⟨nofun, nofun, nofun⟩
  | @next item rest s t u executed rounds stop h hrest ih =>
    obtain ⟨hfront, hcompleted, hbroken⟩ := ih
    refine ⟨fun round hmem => ?_, fun hstop => ?_, fun child outcome hstop => ?_⟩
    · cases rounds with
      | nil => exact absurd hmem List.not_mem_nil
      | cons first more =>
        obtain rfl | hmem := List.mem_cons.1 hmem
        · exact ⟨h.map_fst_of_completed, h.holds_of_completed⟩
        · exact hfront round hmem
    · obtain ⟨hlength, hholds⟩ := hcompleted hstop
      refine ⟨congrArg (· + 1) hlength, fun round hmem => ?_⟩
      obtain rfl | hmem := List.mem_cons.1 hmem
      · exact h.holds_of_completed
      · exact hholds round hmem
    · obtain ⟨hfalse, last, hlast, hexecuted⟩ := hbroken child outcome hstop
      exact ⟨hfalse, last, by simp [List.getLast?_cons, hlast], hexecuted⟩

section Preservation

variable {P : Frame → Prop}

/-- What each tag preserves a pass preserves. -/
theorem Pass.preserves {tags : List Tag} {executed : List (Tag × Option Outcome)}
    (htags : ∀ child ∈ tags, ∀ u, P u → P (site.run child u).after)
    (h : site.Pass tags s executed stop t) (hs : P s) : P t := by
  induction h with
  | completed s => exact hs
  | broken h hstop =>
    have hafter := htags _ List.mem_cons_self _ hs
    rwa [h] at hafter
  | cut h =>
    have hafter := htags _ List.mem_cons_self _ hs
    rwa [h] at hafter
  | next h hgoes hrest ih =>
    have hafter := htags _ List.mem_cons_self _ hs
    rw [h] at hafter
    exact ih (fun child hmem => htags child (List.mem_cons_of_mem _ hmem)) hafter

/-- **What each tag and the binding preserve the rounds preserve**: between them
nothing else is changed. -/
theorem Rounds.preserves (htags : ∀ child ∈ site.tag.tags, ∀ u, P u → P (site.run child u).after)
    (hbinding : ∀ item u, P u → P (u.rebind (binding item)))
    (hreturn : ∀ u v, P u → P v → P (v.returnTo shared u))
    (h : site.Rounds shared binding items s rounds stop t) (hs : P s) :
    (∀ round ∈ rounds, P round.start) ∧ P t := by
  induction h with
  | none s => exact ⟨nofun, hs⟩
  | @broken item rest s t executed child outcome h =>
    have hstart := hbinding item s hs
    refine ⟨fun round hmem => ?_, hreturn _ _ hs (h.preserves htags hstart)⟩
    obtain rfl := List.mem_singleton.1 hmem
    exact hstart
  | @cut item rest s t executed child h =>
    have hstart := hbinding item s hs
    refine ⟨fun round hmem => ?_, h.preserves htags hstart⟩
    obtain rfl := List.mem_singleton.1 hmem
    exact hstart
  | @next item rest s t u executed rounds stop h hrest ih =>
    have hstart := hbinding item s hs
    obtain ⟨hrounds, hend⟩ := ih (hreturn _ _ hs (h.preserves htags hstart))
    refine ⟨fun round hmem => ?_, hend⟩
    obtain rfl | hmem := List.mem_cons.1 hmem
    · exact hstart
    · exact hrounds round hmem

end Preservation

/-! ## Where rounds lead -/

/-- **Where a round has come to, the next tag may be cut off.** -/
theorem Rounds.exists_cut {tag child : Tag} {depth : Depth} {exec other : Tag → Depth → Run Outcome}
    {means : Nat} (h : Rounds ⟨tag, depth, exec, means⟩ shared binding items s rounds stop t)
    {n : Nat} {round : Round} (hn : rounds[n]? = some round) {before after : List Tag}
    (htags : tag.tags = before ++ child :: after) {u v : Frame}
    (hpass : Pass ⟨tag, depth, exec, means⟩ before round.start executed .completed v)
    (hcut : other child depth v = .exhausted u)
    (hrest : ∀ c d w, ¬(c = child ∧ d = depth ∧ w = v) → other c d w = exec c d w) :
    ∃ rounds c, Rounds ⟨tag, depth, other, means⟩ shared binding items s rounds (.cut c) u := by
  -- in the round itself the pass is cut off at the tag
  have hround : ∀ {binding' : Vars → Vars} {s : Frame}, round.start = s.rebind binding' →
      ∃ executed c, Pass ⟨tag, depth, other, means⟩ tag.tags (s.rebind binding') executed (.cut c)
        u := by
    intro binding' s hstart
    rw [hstart] at hpass
    rw [htags]
    exact hpass.exists_cut hcut hrest after
  induction h generalizing n with
  | none s => exact absurd hn (by simp)
  | @broken item rest s t executed c outcome h =>
    obtain ⟨rfl, rfl⟩ : n = 0 ∧ _ = round := by simpa [List.getElem?_singleton] using hn
    obtain ⟨_, c, hcutoff⟩ := hround rfl
    exact ⟨_, c, .cut hcutoff⟩
  | @cut item rest s t executed c h =>
    obtain ⟨rfl, rfl⟩ : n = 0 ∧ _ = round := by simpa [List.getElem?_singleton] using hn
    obtain ⟨_, c, hcutoff⟩ := hround rfl
    exact ⟨_, c, .cut hcutoff⟩
  | @next item rest s t w executed rounds stop h hlater ih =>
    cases n with
    | zero =>
      obtain rfl := Option.some.inj hn
      obtain ⟨_, c, hcutoff⟩ := hround rfl
      exact ⟨_, c, .cut hcutoff⟩
    | succ n =>
      -- the rounds before are as they were, or are cut off there already
      obtain hsame | ⟨_, c, hcutoff⟩ := h.same_or_cut hcut hrest
      · obtain ⟨_, c, hrounds⟩ := ih hn
        exact ⟨_, c, .next hsame hrounds⟩
      · exact ⟨_, c, .cut hcutoff⟩

/-- **Rounds on the local variables themselves carry on what a binding and a pass do.** -/
theorem Rounds.carries {I : Nat → Vars → Prop}
    (hbinding : ∀ n < rounds.length, ∀ item, items[n]? = some item → ∀ locals, I n locals →
      I (n + 1) (binding item locals))
    (hpass : ∀ n (round : Round), rounds[n]? = some round → ∀ executed stop u,
      site.Pass site.tag.tags round.start executed stop u → (∀ child, stop ≠ .cut child) →
      I (n + 1) round.start.locals → I (n + 1) u.locals)
    (h : site.Rounds true binding items s rounds stop t) (hs : I 0 s.locals) :
    (∀ n (round : Round), rounds[n]? = some round → I (n + 1) round.start.locals) ∧
      ((∀ child, stop ≠ .cut child) → I rounds.length t.locals) := by
  generalize hshared : true = shared at h
  induction h generalizing I with
  | none s => exact ⟨fun n round hn => absurd hn (by simp), fun _ => hs⟩
  | @broken item rest s t executed child outcome h =>
    subst hshared
    have hstart := hbinding 0 Nat.one_pos item rfl s.locals hs
    refine ⟨fun n round hn => ?_, fun _ => hpass 0 _ rfl _ _ _ h nofun hstart⟩
    obtain ⟨rfl, rfl⟩ : n = 0 ∧ _ = round := by simpa [List.getElem?_singleton] using hn
    exact hstart
  | @cut item rest s t executed child h =>
    have hstart := hbinding 0 Nat.one_pos item rfl s.locals hs
    refine ⟨fun n round hn => ?_, fun hstop => absurd rfl (hstop child)⟩
    obtain ⟨rfl, rfl⟩ : n = 0 ∧ _ = round := by simpa [List.getElem?_singleton] using hn
    exact hstart
  | @next item rest s t u executed rounds stop h hlater ih =>
    subst hshared
    have hstart := hbinding 0 (Nat.succ_pos _) item rfl s.locals hs
    obtain ⟨hrounds, hends⟩ := @ih (fun n => I (n + 1))
      (fun n hn other hother => hbinding (n + 1) (Nat.succ_lt_succ hn) other hother)
      (fun n round hn => hpass (n + 1) round hn) (hpass 0 _ rfl _ _ _ h nofun hstart)
    refine ⟨fun n round hn => ?_, hends⟩
    cases n with
    | zero =>
      obtain rfl := Option.some.inj hn
      exact hstart
    | succ n => exact hrounds n round hn

/-- **Rounds on copies all begin with the same local variables**, and these are left in the end. -/
theorem Rounds.of_copied (h : site.Rounds false binding items s rounds stop t) :
    (∀ (n : Nat) (round : Round), rounds[n]? = some round →
      ∃ item, items[n]? = some item ∧ round.start.locals = binding item s.locals) ∧
      ((∀ child, stop ≠ .cut child) → t.locals = s.locals) := by
  generalize hshared : false = shared at h
  induction h with
  | none s => exact ⟨fun n round hn => absurd hn (by simp), fun _ => rfl⟩
  | @broken item rest s t executed child outcome h =>
    subst hshared
    refine ⟨fun n round hn => ?_, fun _ => rfl⟩
    obtain ⟨rfl, rfl⟩ : n = 0 ∧ _ = round := by simpa [List.getElem?_singleton] using hn
    exact ⟨item, rfl, rfl⟩
  | @cut item rest s t executed child h =>
    refine ⟨fun n round hn => ?_, fun hstop => absurd rfl (hstop child)⟩
    obtain ⟨rfl, rfl⟩ : n = 0 ∧ _ = round := by simpa [List.getElem?_singleton] using hn
    exact ⟨item, rfl, rfl⟩
  | @next item rest s t u executed rounds stop h hlater ih =>
    subst hshared
    obtain ⟨hrounds, hends⟩ := ih
    refine ⟨fun n round hn => ?_, hends⟩
    cases n with
    | zero =>
      obtain rfl := Option.some.inj hn
      exact ⟨item, rfl, rfl⟩
    | succ n => exact hrounds n round hn

/-! ## What rounds determine -/

/-- The tags inside a block complete if a pass over them does. -/
theorem completes_of_pass {executed : List (Tag × Option Outcome)} (hcalls : ¬site.calls)
    (h : site.Pass site.tag.tags s executed stop t) :
    site.completes s = stop.elim (.done true t) (fun _ _ => .done false t) (.exhausted t) := by
  rw [completes, Run.bind_apply, firstFalsy_of_pass hcalls h]
  cases stop <;> rfl

theorem within_of_done {α : Type} {x : Run α} {a : α} (h : x s = .done a t) (shared : Bool) :
    Run.within shared x s = .done a (t.returnTo shared s) := by
  cases shared with
  | true => exact h
  | false => exact Run.isolated_of_done h

theorem within_of_exhausted {α : Type} {x : Run α} (h : x s = .exhausted t) (shared : Bool) :
    Run.within shared x s = .exhausted t := by
  cases shared with
  | true => exact h
  | false => exact Run.isolated_of_exhausted h

/-- One round, with the variables bound for its item. -/
theorem round_of_pass {executed : List (Tag × Option Outcome)} (hcalls : ¬site.calls)
    {change : Vars → Vars} (h : site.Pass site.tag.tags (s.rebind change) executed stop t)
    (shared : Bool) :
    Run.within shared (Run.change (·.rebind change) >>= fun _ => site.completes) s =
      stop.elim (.done true (t.returnTo shared s)) (fun _ _ => .done false (t.returnTo shared s))
        (.exhausted t) := by
  have hcompletes : (Run.change (·.rebind change) >>= fun _ => site.completes) s =
      stop.elim (.done true t) (fun _ _ => .done false t) (.exhausted t) :=
    completes_of_pass hcalls h
  cases stop with
  | completed => exact within_of_done hcompletes shared
  | broken child outcome => exact within_of_done hcompletes shared
  | cut child => exact within_of_exhausted hcompletes shared

/-- **A computation done for each item makes rounds.** -/
theorem forEach_of_rounds (hcalls : ¬site.calls)
    (h : site.Rounds shared binding items s rounds stop t) :
    Run.forEach (fun item => Run.within shared do
      Run.change (·.rebind (binding item))
      site.completes) items s =
      stop.elim (.done () t) (fun _ _ => .done () t) (.exhausted t) := by
  induction h with
  | none s => rfl
  | broken h =>
    rw [Run.forEach, Run.bind_of_done (round_of_pass hcalls h shared)]
    rfl
  | cut h =>
    rw [Run.forEach, Run.bind_of_exhausted (round_of_pass hcalls h shared)]
    rfl
  | next h hrest ih =>
    rw [Run.forEach, Run.bind_of_done (round_of_pass hcalls h shared)]
    exact ih

end Site

end TagScript
