import TagScript.Proofs.Break
import TagScript.Proofs.Delivery
import TagScript.Proofs.Upholding

/-!
# Executions that share local variables

What a tag binds is there for the tags after it as long as both work on the
same local variables. Two executions do so if one is inside the other and no
copy is made between them: `Engine.Shares`. A copy is made by a script, and
by any block that does not share what is around it. What is done on a copy
is undone, so an execution on a copy leaves the variables as it has found
them, and a property of them that is upheld by all executions that share
them is upheld.

A tag that goes over the rows of a file makes a copy for every row or none
at all. `Execution.GoesThrough` tells such an execution by its rounds. What
is executed in one of these rounds is executed by the tag, so the rounds can
be followed one after the other with what is known of the executions inside.
-/

namespace TagScript

/-- **An execution on copies of the local variables**: that of a script, or of a block that does
not share the local variables around it. -/
def Execution.WorksOnCopy (x : Execution) : Prop :=
  x.tag.name ∈ "load_data" :: scopeNames ∧
    (x.tag.name = "root" ∨ Run.passThrough x.tag x.start = .done false x.start)

/-- **An execution on the local variables of another one**: the other one itself, or one inside it,
if none of those between them works on a copy. -/
inductive Engine.Shares (e : Engine) (x : Execution) : Execution → Prop where
  /-- It is the same. -/
  | itself : Shares e x x
  /-- It is directly inside one of them. -/
  | inner {y z : Execution} (hy : Shares e x y) (hshares : ¬y.WorksOnCopy)
      (hz : e.Executes y z) : Shares e x z

/-- **An execution goes through the rows of a file**: it reads the file and makes rounds for the
records of it that are rows. -/
structure Execution.GoesThrough (limit : Option Nat) (x : Execution) (shared : Bool)
    (source : String) (rounds : List Round) (stop : Stop) (t : Frame) : Prop where
  /-- Its tag does so. -/
  name_eq : x.tag.name = "load_data"
  /-- It may run at its depth. -/
  within : ∀ d, limit = some d → (x.outer + 1).number ≤ d
  /-- Its table is of the known type. -/
  typed : Run.checkTableType x.tag x.start = .done () x.start
  /-- Its encoding is a known one. -/
  encoded : Run.checkEncoding x.tag x.start = .done () x.start
  /-- Whether it works on the local variables themselves. -/
  sharing : Run.passThrough x.tag x.start = .done shared x.start
  /-- It reads the file and makes the rounds. -/
  rounds : ∃ policy name, Run.fieldPolicy x.tag x.start = .done policy x.start ∧
    Run.requireKey x.tag "name" x.start = .done name x.start ∧
    Run.readFile name x.start = .done source x.start ∧
    ((Engine.standard limit).site x.means x.tag x.outer).Rounds shared
      (Runner.delivery policy source) (Table.Sheet.accepted source).zipIdx
      (Runner.counted x.start source) rounds stop t

/-- **An execution binds a variable as it is told to**: its tag is there to assign variables, is
told the name of this one, and ends well. -/
def Execution.Binds (limit : Option Nat) (x : Execution) (key : String) : Prop :=
  x.tag.name ∈ assigningNames ∧ x.tag.Assigns x.start key ∧
    ∃ outcome t, (Engine.standard limit).insideOf x = .done outcome t

/-! ## Acts and deeds that leave a variable -/

/-- The variables that are bound for a script: the depth, and those that tell of the lines being
loaded. -/
def keptNames : List String := Reserved.depth :: loadingNames

/-- **An act leaves what is bound for a script** unless the tag assigns variables or goes over a
file: it binds none of these variables, and asks one for an item only if it is an iterator. -/
theorem Act.get?_kept {tag : Tag} (hassigns : tag.name ∉ assigningNames)
    (hload : tag.name ≠ "load_data") {s t : Frame} (h : Act tag s t) {key : String}
    (hkey : key ∈ keptNames) :
    t.locals.get? key = s.locals.get? key ∨
      ∃ items position, s.locals.get? key = some (.iter items position) := by
  cases h with
  | bound bindings _ _ hloading hdepth =>
    refine .inl (Dict.get?_insertAll_of_not_mem (fun hmem => ?_) _)
    obtain ⟨binding, hbinding, rfl⟩ := List.mem_map.1 hmem
    obtain hname | hname := List.mem_cons.1 hkey
    · exact hdepth hassigns binding hbinding hname
    · exact hloading hassigns hload binding hbinding hname
  | iterated name items position h =>
    obtain hmake | ⟨others, place, hiterator⟩ := h
    · exact absurd (by simp [assigningNames, hmake]) hassigns
    · by_cases hname : key = name
      · exact .inr ⟨others, place, hname ▸ hiterator⟩
      · exact .inl (Dict.get?_insert_of_ne _ _ hname)
  | uncounted h => exact absurd h hload
  | granted names _ =>
    exact .inl (Dict.get?_insert_of_ne _ _ (ne_of_mem_of_not_mem hkey (by decide)))
  | boundGlobally | defined | called | started | stored => exact .inl rfl

/-- **So does a deed** unless it assigns it. -/
theorem Tag.Deed.get?_kept {tag : Tag} {start s t : Frame} (h : tag.Deed start s t)
    {key : String} (hkey : key ∈ keptNames) (hassigns : ¬tag.Assigns start key) :
    t.locals.get? key = s.locals.get? key := by
  cases h with
  | assigned bindings h =>
    refine Dict.get?_insertAll_of_not_mem (fun hmem => hassigns ?_) _
    obtain ⟨binding, hbinding, rfl⟩ := List.mem_map.1 hmem
    exact h binding hbinding
  | installed handler _ =>
    exact Dict.get?_insert_of_ne _ _ (ne_of_mem_of_not_mem hkey (by decide))
  | nothing | assignedGlobally | advanced | defined | wrote | appended | started => rfl

/-! ## Going through the rows of a file -/

namespace Runner

/-- **Going over the rows makes rounds** for the records. -/
theorem overRows_of_rounds {site : Site} (hcalls : ¬site.calls) {policy : Table.FieldPolicy}
    {source : String} {shared : Bool} {s t : Frame} {rounds : List Round} {stop : Stop}
    (h : site.Rounds shared (delivery policy source) (Table.Sheet.accepted source).zipIdx s rounds
      stop t) :
    overRows site shared (Table.Sheet.ofText policy source) s =
      stop.elim (.done () t) (fun _ _ => .done () t) (.exhausted t) := by
  have hrounds : site.Rounds shared
      (fun item => rowScope (Table.Sheet.ofText policy source).columns item.1 (item.2 + 1))
      (Table.Sheet.ofText policy source).rows.zipIdx s rounds stop t := by
    rw [Table.Sheet.ofText_eq]
    dsimp only
    rw [List.zipIdx_map]
    exact Site.Rounds.of_comp h
  exact Site.forEach_of_rounds hcalls hrounds

end Runner

namespace Execution.GoesThrough

variable {limit : Option Nat} {x : Execution} {shared : Bool} {source : String}
  {rounds : List Round} {stop : Stop} {t : Frame}
  (h : x.GoesThrough limit shared source rounds stop t)
include h

/-- Whatever executes the tags inside, the rounds that are made tell how the tag ends. -/
theorem dispatch_of_rounds {policy : Table.FieldPolicy} {name : String}
    (hpolicy : Run.fieldPolicy x.tag x.start = .done policy x.start)
    (hfile : Run.requireKey x.tag "name" x.start = .done name x.start)
    (hsource : Run.readFile name x.start = .done source x.start)
    {exec : Tag → Depth → Run Outcome} {others : List Round} {end_ : Stop} {u : Frame}
    (hrounds : Site.Rounds ⟨x.tag, x.outer + 1, exec, x.means⟩ shared
      (Runner.delivery policy source) (Table.Sheet.accepted source).zipIdx
      (Runner.counted x.start source) others end_ u) :
    (Engine.standard limit).dispatch ⟨x.tag, x.outer + 1, exec, x.means⟩
        (x.frame.enter x.tag (x.outer + 1)) =
      end_.elim (.done .ok (Runner.discounted u)) (fun _ _ => .done .ok (Runner.discounted u))
        (.exhausted u) := by
  have hmem : (x.tag.name, Runner.loadSheet) ∈ builtins := by simp [builtins, h.name_eq]
  have hcalls : ¬Site.calls ⟨x.tag, x.outer + 1, exec, x.means⟩ := by simp [Site.calls, h.name_eq]
  have hrows := Runner.overRows_of_rounds hcalls hrounds
  rw [Engine.dispatch_of_mem_within hmem h.within]
  refine (@Runner.loadSheet_of_source ⟨x.tag, x.outer + 1, exec, x.means⟩ _ h.typed h.encoded _
    h.sharing _ hpolicy _ _ hfile hsource).trans ?_
  cases end_ with
  | completed => exact Run.bind_of_done hrows _
  | broken child outcome => exact Run.bind_of_done hrows _
  | cut child => exact Run.bind_of_exhausted hrows _

/-- **It ends where its rounds lead**, without the count. -/
theorem insideOf_eq : (Engine.standard limit).insideOf x =
    stop.elim (.done .ok (Runner.discounted t)) (fun _ _ => .done .ok (Runner.discounted t))
      (.exhausted t) := by
  obtain ⟨policy, name, hpolicy, hfile, hsource, hrounds⟩ := h.rounds
  exact h.dispatch_of_rounds hpolicy hfile hsource hrounds

/-- **What is executed in one of its rounds it executes.** -/
theorem executes {n : Nat} {round : Round} (hn : rounds[n]? = some round) {before after : List Tag}
    {child : Tag} (htags : x.tag.tags = before ++ child :: after)
    {executed : List (Tag × Option Outcome)} {u : Frame}
    (hpass : ((Engine.standard limit).site x.means x.tag x.outer).Pass before round.start executed
      .completed u) {means : Nat} (hmeans : x.means = means + 1) :
    (Engine.standard limit).Executes x ⟨child, x.outer + 1, u, means⟩ where
  means := hmeans
  asks v other hcut hrest := by
    obtain ⟨policy, name, hpolicy, hfile, hsource, hrounds⟩ := h.rounds
    obtain ⟨_, _, hrounds⟩ := hrounds.exists_cut hn htags hpass hcut hrest
    exact h.dispatch_of_rounds hpolicy hfile hsource hrounds

/-- **A round carries on what the executions in it do.** -/
theorem pass_carries {I : Vars → Prop}
    (hexec : ∀ y, (Engine.standard limit).Executes x y → I y.frame.locals →
      ((Engine.standard limit).ending y).Reaches I)
    {n : Nat} {round : Round} (hn : rounds[n]? = some round)
    {executed : List (Tag × Option Outcome)} {end_ : Stop} {u : Frame}
    (hpass : ((Engine.standard limit).site x.means x.tag x.outer).Pass x.tag.tags round.start
      executed end_ u)
    (hstop : ∀ child, end_ ≠ .cut child) (hI : I round.start.locals) : I u.locals := by
  refine hpass.carries (P := fun u => I u.locals) ?_ hstop hI
  intro before child after earlier v htags hearlier hv outcome w hrun
  cases hmeans : x.means with
  | zero =>
    have hcut :
        ((Engine.standard limit).site x.means x.tag x.outer).run child v = .exhausted v := by
      rw [hmeans]
      rfl
    cases hcut.symm.trans hrun
  | succ means =>
    have hreaches := hexec _ (h.executes hn htags hearlier hmeans) hv
    have hends : (Engine.standard limit).ending ⟨child, x.outer + 1, v, means⟩ =
        .done outcome w := by
      rw [← hrun]
      show (Engine.standard limit).execute (means + 1) child (x.outer + 1) v = _
      rw [← hmeans]
      rfl
    rw [hends] at hreaches
    exact hreaches

omit h in
/-- **The rounds carry on what the rows and the executions in them do**, if these share the local
variables. -/
theorem carries {I : Nat → Vars → Prop} (h : x.GoesThrough limit true source rounds stop t)
    (hrow : ∀ n < rounds.length, ∀ policy columns record before after,
      Runner.Delivers policy columns record n before after → I n before → I (n + 1) after)
    (hexec : ∀ n < rounds.length, ∀ y, (Engine.standard limit).Executes x y →
      I (n + 1) y.frame.locals → ((Engine.standard limit).ending y).Reaches (I (n + 1)))
    (hstart : I 0 (Runner.counted x.start source).locals) :
    (∀ n (round : Round), rounds[n]? = some round → I (n + 1) round.start.locals) ∧
      ((∀ child, stop ≠ .cut child) → I rounds.length t.locals) := by
  obtain ⟨policy, name, -, -, -, hrounds⟩ := h.rounds
  refine hrounds.carries (fun n hn item hitem locals hI => ?_)
    (fun n round hround executed stop u hpass hstop hI => ?_) hstart
  · rw [List.getElem?_zipIdx, Nat.zero_add] at hitem
    obtain ⟨record, -, rfl⟩ := Option.map_eq_some_iff.1 hitem
    exact hrow n hn _ _ record _ _ (Runner.delivers_rowScope _ _ _ _ _) hI
  · exact h.pass_carries (hexec n (List.getElem?_eq_some_iff.1 hround).1) hround hpass hstop hI

end Execution.GoesThrough

namespace Engine

variable {limit : Option Nat} {x y z : Execution}

/-- **A tag that goes over a file faults where it began or goes through the rows.** -/
theorem exists_goesThrough (hname : x.tag.name = "load_data") :
    (∃ fault u, (standard limit).insideOf x = .failed fault u ∧ u.locals = x.start.locals) ∨
      ∃ shared source rounds stop t, x.GoesThrough limit shared source rounds stop t := by
  have hmem : (x.tag.name, Runner.loadSheet) ∈ builtins := by simp [builtins, hname]
  obtain ⟨_, _, _, hdeep⟩ | ⟨hwithin, hruns⟩ := @dispatch_of_mem limit
    ((standard limit).site x.means x.tag x.outer) _ hmem (x.frame.enter x.tag (x.outer + 1))
  · exact .inl ⟨_, _, hdeep, rfl⟩
  obtain ⟨tags, passes, w, hopens⟩ | hdeclines := @Runner.opensOrDeclines_loadSheet
    ((standard limit).site x.means x.tag x.outer) x.start hname
  · cases hopens with
    | @loadSheet _ htype hencoding shared hshared policy hpolicy name source hfile hsource =>
      obtain ⟨rounds, stop, t, hrounds⟩ := Site.exists_rounds
        ((standard limit).run_ne_failed x.means x.tag x.outer) shared
        (Runner.delivery policy source) (Table.Sheet.accepted source).zipIdx
        (Runner.counted x.start source)
      exact .inr ⟨shared, source, rounds, stop, t, hname, hwithin, htype, hencoding, hshared,
        policy, name, hpolicy, hfile, hsource, hrounds⟩
    | _ => simp_all
  · have hinside : (standard limit).insideOf x =
        Runner.loadSheet ((standard limit).site x.means x.tag x.outer) x.start := hruns
    generalize Runner.loadSheet _ x.start = ending at hdeclines hinside
    cases hdeclines with
    | refused fault => exact .inl ⟨fault, _, hinside, rfl⟩
    | _ => simp_all

/-- A block that does not share the local variables leaves them as it has found them. -/
theorem restores_inside (hname : y.tag.name ∈ scopeNames)
    (hcopy : y.tag.name = "root" ∨ Run.passThrough y.tag y.start = .done false y.start) :
    ((standard limit).insideOf y).Reaches (· = y.start.locals) := by
  obtain ⟨runner, hmem, hrestores⟩ :=
    @exists_restoring_runner ((standard limit).site y.means y.tag y.outer) y.start hname hcopy
  obtain ⟨_, _, _, hdeep⟩ | ⟨_, hruns⟩ := @dispatch_of_mem limit
    ((standard limit).site y.means y.tag y.outer) runner hmem (y.frame.enter y.tag (y.outer + 1))
  · have hinside : (standard limit).insideOf y = _ := hdeep
    rw [hinside]
    rfl
  · have hinside : (standard limit).insideOf y = _ := hruns
    rw [hinside]
    exact Run.Restores.reaches hrestores rfl

/-- **An execution on copies leaves the local variables as it has found them**, but for the count
of the lines of a file. -/
theorem get?_of_worksOnCopy (hcopy : y.WorksOnCopy) {key : String}
    (hkey : key ≠ Reserved.loadedDataCount) :
    ((standard limit).insideOf y).Reaches fun locals =>
      locals.get? key = y.start.locals.get? key := by
  obtain ⟨hname, hcopy⟩ := hcopy
  obtain hname | hname := List.mem_cons.1 hname
  · have hcopy : Run.passThrough y.tag y.start = .done false y.start :=
      hcopy.resolve_left (by rw [hname]; decide)
    obtain ⟨fault, u, hfailed, hlocals⟩ | ⟨shared, source, rounds, stop, t, h⟩ :=
      @exists_goesThrough limit y hname
    · rw [hfailed]
      exact congrArg (Dict.get? · key) hlocals
    · obtain rfl : false = shared := (Ending.done.inj (hcopy.symm.trans h.sharing)).1
      obtain ⟨policy, name, -, -, -, hrounds⟩ := h.rounds
      rw [h.insideOf_eq]
      have hleft (hstop : ∀ child, stop ≠ .cut child) :
          (Runner.discounted t).locals.get? key = y.start.locals.get? key := by
        have hend : t.locals = (Runner.counted y.start source).locals := hrounds.of_copied.2 hstop
        have herased : (Runner.discounted t).locals.get? key = t.locals.get? key :=
          (Dict.get?_erase _ _ _).trans (if_neg hkey)
        rw [herased, hend]
        exact Dict.get?_insert_of_ne _ _ hkey
      cases stop with
      | completed => exact hleft nofun
      | broken child outcome => exact hleft nofun
      | cut child => trivial
  · have hrestores := @restores_inside limit y hname hcopy
    cases hinside : (standard limit).insideOf y with
    | done outcome u =>
      rw [hinside] at hrestores
      exact congrArg (Dict.get? · key) hrestores
    | failed fault u =>
      rw [hinside] at hrestores
      exact congrArg (Dict.get? · key) hrestores
    | exhausted u => trivial

/-- **What an execution reaches its runner does**, if the report of a fault
makes no difference: the boundary around it binds nothing else. -/
theorem reaches_ending {I : Vars → Prop} {y : Execution}
    (hreport : ∀ locals others : Vars,
      (∀ key, key ≠ Reserved.debug → others.get? key = locals.get? key) → I locals → I others)
    (h : ((standard limit).insideOf y).Reaches I) : ((standard limit).ending y).Reaches I := by
  cases hinside : (standard limit).insideOf y with
  | done outcome u =>
    have hending : (standard limit).ending y = _ := boundary_of_done hinside
    rw [hinside] at h
    rw [hending]
    exact h
  | failed fault u =>
    have hending : (standard limit).ending y = _ := boundary_of_failed hinside
    rw [hinside] at h
    rw [hending]
    exact hreport u.locals _ (fun key hkey => Frame.get?_fault hkey _) h
  | exhausted u =>
    have hending : (standard limit).ending y = _ := boundary_of_exhausted hinside
    rw [hending]
    trivial

/-- **What an execution leaves of a variable that is bound for a script**: it keeps a property of
it, if it is not told to bind it, if the rows do where it goes through those of a file, and if the
executions inside do where they share the local variables. -/
theorem reaches_inside {key : String} (hkey : key ∈ [Reserved.depth, Reserved.loadedDataItemIndex])
    {I : Option Value → Prop} (hiterator : ∀ items position, ¬I (some (.iter items position)))
    (hbinds : ¬y.Binds limit key)
    (hrow : ∀ source rounds stop t, y.GoesThrough limit true source rounds stop t →
      ∀ n < rounds.length, ∀ policy columns record before after,
        Runner.Delivers policy columns record n before after → I (before.get? key) →
          I (after.get? key))
    (hstart : I (y.start.locals.get? key))
    (hasked : ¬y.WorksOnCopy → ∀ z, (standard limit).Executes y z → I (z.frame.locals.get? key) →
      ((standard limit).ending z).Reaches fun locals => I (locals.get? key)) :
    ((standard limit).insideOf y).Reaches fun locals => I (locals.get? key) := by
  have hcount : key ≠ Reserved.loadedDataCount := ne_of_mem_of_not_mem hkey (by decide)
  have hkept : key ∈ keptNames :=
    (by decide : ∀ key ∈ [Reserved.depth, Reserved.loadedDataItemIndex], key ∈ keptNames) key hkey
  by_cases hcopy : y.WorksOnCopy
  · refine (get?_of_worksOnCopy hcopy hcount).mono fun locals hsame => ?_
    rwa [hsame]
  replace hasked := hasked hcopy
  by_cases hload : y.tag.name = "load_data"
  · obtain ⟨fault, u, hfailed, hlocals⟩ | ⟨shared, source, rounds, stop, t, h⟩ :=
      @exists_goesThrough limit y hload
    · rw [hfailed]
      show I (u.locals.get? key)
      rwa [hlocals]
    · obtain rfl : shared = true :=
        Bool.of_not_eq_false fun hfalse => hcopy ⟨by simp [hload], .inr (hfalse ▸ h.sharing)⟩
      have hcounted : (Runner.counted y.start source).locals.get? key = y.start.locals.get? key :=
        Dict.get?_insert_of_ne _ _ hcount
      obtain ⟨-, hends⟩ := h.carries (I := fun _ locals => I (locals.get? key))
        (fun n hn policy columns record before after =>
          hrow source rounds stop t h n hn policy columns record before after)
        (fun n hn => hasked) (by rwa [hcounted])
      rw [h.insideOf_eq]
      have hleft (hstop : ∀ child, stop ≠ .cut child) :
          I ((Runner.discounted t).locals.get? key) := by
        have herased : (Runner.discounted t).locals.get? key = t.locals.get? key :=
          (Dict.get?_erase _ _ _).trans (if_neg hcount)
        rw [herased]
        exact hends hstop
      cases stop with
      | completed => exact hleft nofun
      | broken child outcome => exact hleft nofun
      | cut child => trivial
  by_cases hname : y.tag.name ∈ assigningNames
  · refine (upheld_inside (upholds_of_deed (mem_leafNames_of_mem_assigningNames hname)
      fun outcome t hdone s hdeed hs => ?_) hstart hasked).2
    rwa [hdeed.get?_kept hkept fun hassigns => hbinds ⟨hname, hassigns, outcome, t, hdone⟩]
  · refine (upheld_inside (upholds_of_act (fun s t hact hs => ?_) _) hstart hasked).2
    obtain hsame | ⟨items, position, hiter⟩ := hact.get?_kept hname hload hkept
    · rwa [hsame]
    · rw [hiter] at hs
      exact absurd hs (hiterator items position)

/-- What shares the local variables of an execution that shares them shares them. -/
theorem Shares.of_executes {e : Engine} (hshares : ¬x.WorksOnCopy) (hy : e.Executes x y)
    (hz : e.Shares y z) : e.Shares x z := by
  induction hz with
  | itself => exact .inner .itself hshares hy
  | inner hu hshares' hz ih => exact .inner ih hshares' hz

end Engine

end TagScript
