import TagScript.Proofs.Cursor
import TagScript.Proofs.Reading
import TagScript.Proofs.Rounds

/-!
# Iterations and iterators

An iteration and an iterator go through a value each in its own way. The iteration
turns the value into entries all at once, before the first round, and nothing that
happens in the rounds comes back to them; the iterator keeps the items and gives them
out when it is asked. `Value.EntryAt` says what stands in a value at a place without
either way, and both meet it: the rounds have the entries, and the steps give out
their values, or their keys in the case of a map.

Between the rounds an iteration changes no variable but the two of the entry at hand.
So a variable that holds an iterator is not moved on by going over it.
-/

namespace TagScript

/-! ## What stands in a value -/

/-- **An entry stands where there are so many keys before its own**, if the keys
ascend. -/
theorem Dict.Ascending.getElem?_eq_some_iff {α : Type} {d : Dict α} (h : d.Ascending) {i : Nat}
    {key : String} {value : α} :
    d[i]? = some (key, value) ↔
      d.get? key = some value ∧ (d.filter fun entry => entry.1 < key).length = i := by
  induction d generalizing i with
  | nil => simp
  | cons first rest ih =>
    obtain ⟨k, v⟩ := first
    obtain ⟨hbefore, hrest⟩ := List.pairwise_cons.1 h
    have hfirst : ∀ entry ∈ rest, k < entry.1 := hbefore
    -- no key is before the first one
    have hnone : List.filter (fun entry : String × α => decide (entry.1 < k)) rest = [] :=
      List.filter_eq_nil_iff.2 fun entry hmem hlt =>
        String.lt_irrefl k (String.lt_trans (hfirst entry hmem) (of_decide_eq_true hlt))
    have hself :
        List.filter (fun entry : String × α => decide (entry.1 < k)) ((k, v) :: rest) = [] := by
      rw [List.filter_cons_of_neg (by simp), hnone]
    by_cases hk : k = key
    · subst hk
      have hget : Dict.get? ((k, v) :: rest) k = some v := if_pos rfl
      rw [hself, hget]
      cases i with
      | zero =>
        rw [List.getElem?_cons_zero]
        simp
      | succ i =>
        have hrest : rest[i]? ≠ some (k, value) := fun hi =>
          String.lt_irrefl k (hfirst (k, value) (List.mem_of_getElem? hi))
        rw [List.getElem?_cons_succ]
        exact ⟨fun hi => absurd hi hrest, fun ⟨_, hplace⟩ => nomatch hplace⟩
    · have hget : Dict.get? ((k, v) :: rest) key = Dict.get? rest key := if_neg hk
      -- an entry of the rest stands behind the first one
      have hbehind (hvalue : Dict.get? rest key = some value) :
          (List.filter (fun entry : String × α => decide (entry.1 < key))
            ((k, v) :: rest)).length =
          (List.filter (fun entry : String × α => decide (entry.1 < key)) rest).length + 1 := by
        have hlt : k < key := hfirst (key, value) (Dict.mem_of_get?_eq_some hvalue)
        rw [List.filter_cons_of_pos (by simp [hlt]), List.length_cons]
      rw [hget]
      cases i with
      | zero =>
        refine ⟨fun hi => ?_, fun ⟨hvalue, hplace⟩ => ?_⟩
        · obtain ⟨heq, _⟩ := Prod.mk.inj (Option.some.inj hi)
          exact absurd heq hk
        · rw [hbehind hvalue] at hplace
          exact nomatch hplace
      | succ i =>
        rw [List.getElem?_cons_succ, ih hrest]
        refine and_congr_right fun hvalue => ?_
        rw [hbehind hvalue, Nat.add_right_cancel_iff]

namespace Value

/-- **What stands in a value at a place**: an entry of a key and a value. The entries
of an array, a text and an iterator are numbered from zero, those of an iterator from
where it stands; the entries of a map stand in the order of their keys. -/
inductive EntryAt : Value → Nat → Value × Value → Prop where
  | array {items : List Value} {i : Nat} {item : Value} (h : items[i]? = some item) :
      EntryAt (.array items) i (.int (Int64.ofNat i), item)
  | text {text : String} {i : Nat} {c : Char} (h : text.toList[i]? = some c) :
      EntryAt (.str text) i (.int (Int64.ofNat i), .str (String.ofList [c]))
  | iter {items : List Value} {position i : Nat} {item : Value}
      (h : items[position + i]? = some item) :
      EntryAt (.iter items position) i (.int (Int64.ofNat i), item)
  | map {entries : Dict Value} {i : Nat} {key : String} {value : Value}
      (h : entries.get? key = some value)
      (hplace : (entries.filter fun entry => entry.1 < key).length = i) :
      EntryAt (.map entries) i (.str key, value)

/-- What an iterator gives out of an entry: the key of a map, and else the value. -/
def itemOf : Value → Value × Value → Value
  | .map _, entry => entry.1
  | _, entry => entry.2

/-- Whether the keys ascend if a value is a map. Those of what a run reads do:
`Engine.IsOrderly.isOrdered_read`. -/
def IsOrdered (v : Value) : Prop := ∀ entries, v = .map entries → Dict.Ascending entries

theorem getElem?_numbered (items : List Value) (i : Nat) :
    (numbered items)[i]? = items[i]?.map fun item => (.int (Int64.ofNat i), item) := by
  simp [numbered, Function.comp_def]

/-- **The entries of a value are what stands in it.** -/
theorem getElem?_entries? {v : Value} (hordered : v.IsOrdered) {entries : List (Value × Value)}
    (h : v.entries? = some entries) (i : Nat) (entry : Value × Value) :
    entries[i]? = some entry ↔ v.EntryAt i entry := by
  cases v with
  | null | bool | int | float | handler => cases h
  | array items =>
    obtain rfl := Option.some.inj h
    rw [getElem?_numbered, Option.map_eq_some_iff]
    constructor
    · rintro ⟨item, hitem, rfl⟩
      exact .array hitem
    · intro hentry
      cases hentry with
      | array hitem => exact ⟨_, hitem, rfl⟩
  | str text =>
    obtain rfl := Option.some.inj h
    rw [getElem?_numbered, characters, List.getElem?_map, Option.map_map, Option.map_eq_some_iff]
    constructor
    · rintro ⟨c, hc, rfl⟩
      exact .text hc
    · intro hentry
      cases hentry with
      | text hc => exact ⟨_, hc, rfl⟩
  | iter items position =>
    obtain rfl := Option.some.inj h
    rw [getElem?_numbered, remaining, List.getElem?_drop, Option.map_eq_some_iff]
    constructor
    · rintro ⟨item, hitem, rfl⟩
      exact .iter hitem
    · intro hentry
      cases hentry with
      | iter hitem => exact ⟨_, hitem, rfl⟩
  | map members =>
    obtain rfl := Option.some.inj h
    have hplace (key : String) (value : Value) : members[i]? = some (key, value) ↔ _ :=
      (hordered members rfl).getElem?_eq_some_iff
    rw [List.getElem?_map, Option.map_eq_some_iff]
    constructor
    · rintro ⟨⟨key, value⟩, hmember, rfl⟩
      obtain ⟨hvalue, hcount⟩ := (hplace key value).1 hmember
      exact .map hvalue hcount
    · intro hentry
      cases hentry with
      | map hvalue hcount => exact ⟨_, (hplace _ _).2 ⟨hvalue, hcount⟩, rfl⟩

/-- **The items of a value are the items of its entries.** -/
theorem items?_eq_map {v : Value} {entries : List (Value × Value)} (h : v.entries? = some entries) :
    v.items? = some (entries.map v.itemOf) := by
  have hnumbered (items : List Value) : (numbered items).map (·.2) = items := by
    refine List.ext_getElem? fun i => ?_
    rw [List.getElem?_map, getElem?_numbered, Option.map_map]
    exact Option.map_id'
  cases v with
  | null | bool | int | float | handler => cases h
  | array | str | iter =>
    obtain rfl := Option.some.inj h
    exact congrArg some (hnumbered _).symm
  | map members =>
    obtain rfl := Option.some.inj h
    exact congrArg some (by simp [itemOf])

end Value

/-! ## Going over a variable -/

/-- **A tag that goes over a variable**, on the local variables themselves or on a
copy. -/
structure Tag.Iterates (tag : Tag) (s : Frame) (source : String) (shared : Bool) : Prop where
  name : tag.name = "for_in"
  shares : Run.passThrough tag s = .done shared s
  notComputed : tag.hasAttr "key_eval" = false
  source : Run.requireKey tag "key" s = .done source s

/-- **A tag that makes an iterator** in one variable of what another one holds. -/
structure Tag.MakesIterator (tag : Tag) (s : Frame) (source key : String) : Prop where
  name : tag.name = "iter_make"
  source : Run.requireKey tag "src" s = .done source s
  key : Run.requireKey tag "key" s = .done key s

/-- The local variables of a round. -/
def bindEntry (entry : Value × Value) (locals : Vars) : Vars :=
  (locals.insert Reserved.forInKey entry.1).insert Reserved.forInValue entry.2

theorem get?_bindEntry (entry : Value × Value) (locals : Vars) :
    (bindEntry entry locals).get? Reserved.forInKey = some entry.1 ∧
    (bindEntry entry locals).get? Reserved.forInValue = some entry.2 := by
  unfold bindEntry
  rw [Dict.get?_insert_of_ne _ _ (by decide), Dict.get?_insert_self, Dict.get?_insert_self]
  exact ⟨rfl, rfl⟩

/-- What a variable is bound to, locally and globally. -/
def Frame.Binds (s : Frame) (key : String) (inner outer : Option Value) : Prop :=
  s.locals.get? key = inner ∧ s.world.globals.get? key = outer

theorem Frame.Binds.returnTo {s t : Frame} {key : String} {inner outer : Option Value}
    (shared : Bool) (hs : s.Binds key inner outer) (ht : t.Binds key inner outer) :
    (t.returnTo shared s).Binds key inner outer := by
  cases shared with
  | true => exact ht
  | false => exact ⟨hs.1, ht.2⟩

namespace Runner

variable {site : Site} {s : Frame} {source : String} {shared : Bool}

/-- **An iteration makes rounds** for the entries of the value that the variable has
when it starts. -/
theorem forIn_of_rounds (h : site.tag.Iterates s source shared) {entries : List (Value × Value)}
    (hentries : (s.read source).entries? = some entries) {rounds : List Round} {stop : Stop}
    {t : Frame} (hrounds : site.Rounds true bindEntry entries s rounds stop t) :
    forIn site s = stop.elim (.done .ok (t.returnTo shared s))
      (fun _ _ => .done .ok (t.returnTo shared s)) (.exhausted t) := by
  have hcalls : ¬site.calls := by simp [Site.calls, h.name]
  have hsource : Run.read source s = .done (s.read source) s := rfl
  have hgone : Run.forEach (fun entry : Value × Value => do
      Run.setLocal Reserved.forInKey entry.1
      Run.setLocal Reserved.forInValue entry.2
      site.completes) entries s =
      stop.elim (.done () t) (fun _ _ => .done () t) (.exhausted t) :=
    Site.forEach_of_rounds hcalls hrounds
  have hended : (do
      Run.forEach (fun entry : Value × Value => do
        Run.setLocal Reserved.forInKey entry.1
        Run.setLocal Reserved.forInValue entry.2
        site.completes) entries
      pure .ok : Run Outcome) s =
      stop.elim (.done .ok t) (fun _ _ => .done .ok t) (.exhausted t) := by
    rw [Run.bind_apply, hgone]
    cases stop <;> rfl
  unfold forIn
  rw [Run.bind_of_done h.shares]
  dsimp only
  rw [if_neg (by simp [h.notComputed]), Run.bind_of_done h.source, Run.bind_of_done hsource,
    hentries]
  cases stop with
  | completed => exact Site.within_of_done hended shared
  | broken child outcome => exact Site.within_of_done hended shared
  | cut child => exact Site.within_of_exhausted hended shared

/-- It goes over nothing else. -/
theorem forIn_of_none (h : site.tag.Iterates s source shared)
    (hentries : (s.read source).entries? = none) :
    forIn site s = .failed (.of (.notIterable source (s.read source).kind)) s := by
  have hsource : Run.read source s = .done (s.read source) s := rfl
  unfold forIn
  rw [Run.bind_of_done h.shares]
  dsimp only
  rw [if_neg (by simp [h.notComputed]), Run.bind_of_done h.source, Run.bind_of_done hsource,
    hentries]
  rfl

end Runner

/-- **What the rounds of an iteration over a value are.** -/
structure Site.IteratesOver (site : Site) (v : Value) (s : Frame) (rounds : List Round) (stop : Stop)
    (t : Frame) : Prop where
  /-- One round follows another, and between them the two variables of the entry are
  bound and nothing else is changed. -/
  made : ∃ entries, site.Rounds true bindEntry entries s rounds stop t
  /-- The first round begins with the first entry of the value, and so on. -/
  bound (i : Nat) (round : Round) : rounds[i]? = some round → ∃ entry, v.EntryAt i entry ∧
    round.start.locals.get? Reserved.forInKey = some entry.1 ∧
    round.start.locals.get? Reserved.forInValue = some entry.2
  /-- All rounds but the last one are whole: in them all tags yield true. -/
  whole (round : Round) : round ∈ rounds.dropLast →
    round.executed.map Prod.fst = site.tag.tags ∧ round.Holds
  /-- The last one is, too, if the iteration does not break off, and then there has been
  a round for every entry. -/
  completed : stop = .completed →
    (∀ round ∈ rounds, round.Holds) ∧ ∀ i entry, v.EntryAt i entry → i < rounds.length
  /-- If it breaks off, that is at a tag that yields false. -/
  broken (child : Tag) (outcome : Outcome) : stop = .broken child outcome →
    outcome.truthy = false ∧
      ∃ last, rounds.getLast? = some last ∧ last.executed.getLast? = some (child, some outcome)
  /-- A variable that the tags inside leave alone, and that is not one of the two, is what
  it was: in every round, after the last one and once a copy has been given up. -/
  kept (key : String) (inner outer : Option Value) : key ≠ Reserved.forInKey →
    key ≠ Reserved.forInValue → s.Binds key inner outer →
    (∀ child ∈ site.tag.tags, ∀ u, u.Binds key inner outer →
      (site.run child u).after.Binds key inner outer) →
    (∀ round ∈ rounds, round.start.Binds key inner outer) ∧ t.Binds key inner outer ∧
      ∀ shared, (t.returnTo shared s).Binds key inner outer

theorem Site.Rounds.iteratesOver {site : Site} (hcalls : ¬site.calls) {v : Value}
    (hordered : v.IsOrdered) {entries : List (Value × Value)} (hentries : v.entries? = some entries)
    {s t : Frame} {rounds : List Round} {stop : Stop}
    (h : site.Rounds true bindEntry entries s rounds stop t) :
    site.IteratesOver v s rounds stop t := by
  obtain ⟨hwhole, hcompleted, hbroken⟩ := h.stops hcalls
  refine ⟨⟨entries, h⟩, fun i round hround => ?_, hwhole, fun hstop => ?_, hbroken, ?_⟩
  · obtain ⟨entry, before, hentry, hstart⟩ := h.exists_start hround
    rw [hstart]
    exact ⟨entry, (Value.getElem?_entries? hordered hentries i entry).1 hentry,
      get?_bindEntry entry before.locals⟩
  · obtain ⟨hlength, hholds⟩ := hcompleted hstop
    refine ⟨hholds, fun i entry hentry => ?_⟩
    rw [hlength]
    exact (List.getElem?_eq_some_iff.1
      ((Value.getElem?_entries? hordered hentries i entry).2 hentry)).1
  · intro key inner outer hkey hvalue hbinds htags
    have hbinding (entry : Value × Value) (u : Frame) (hu : u.Binds key inner outer) :
        (u.rebind (bindEntry entry)).Binds key inner outer := by
      refine ⟨?_, hu.2⟩
      show (bindEntry entry u.locals).get? key = inner
      unfold bindEntry
      rw [Dict.get?_insert_of_ne _ _ hvalue, Dict.get?_insert_of_ne _ _ hkey]
      exact hu.1
    obtain ⟨hrounds, hend⟩ :=
      h.preserves htags hbinding (fun u v => Frame.Binds.returnTo true) hbinds
    exact ⟨hrounds, hend, fun shared => hbinds.returnTo shared hend⟩

namespace Engine

variable {limit : Option Nat} {means : Nat} {iteration making : Tag} {outer : Depth} {s : Frame}
  {source key : String} {shared : Bool}

/-- Tags that begin in one place read the same. -/
theorem read_begin_eq (s : Frame) (iteration making : Tag) (outer : Depth) (key : String) :
    (s.begin making outer).read key = (s.begin iteration outer).read key := by
  unfold Frame.read Frame.lookup
  rw [Frame.globals_begin, Frame.globals_begin]
  rfl

/-- **An iteration goes over what a variable holds when it starts, and an iterator gives
out the same.** Let a tag go over a variable, and let another tag make an iterator of it
in some variable but the depth and the time, which each tag binds anew.

If the value has no items, both tags fault and for the same cause. If it has some, the
first tag makes its rounds for what stands in the value then, whatever the tags inside do
to the variable meanwhile: it goes on up to the last entry or the first round in which a
tag yields false, and leaves the variable alone itself. The other tag succeeds; after
that, steps of its iterator, by whatever tags they are taken, yield the items one after
another and then true each time, and there is always a further step. And these items are
the values of the entries, but for a map their keys. -/
theorem execute_iteration_and_iterator
    (hwithin : ∀ d, limit = some d → (outer + 1).number ≤ d)
    (hover : iteration.Iterates (s.begin iteration outer) source shared)
    (hmakes : making.MakesIterator (s.begin making outer) source key)
    (hdepth : key ≠ Reserved.depth) (htime : key ≠ Reserved.logDatetime) {v : Value}
    (hv : (s.begin iteration outer).read source = v) (hordered : v.IsOrdered) :
    (v.items? = none →
      (standard limit).inside means iteration outer s =
        .failed (.of (.notIterable source v.kind)) (s.begin iteration outer) ∧
      (standard limit).inside means making outer s =
        .failed (.of (.notIterable source v.kind)) (s.begin making outer)) ∧
    ∀ items, v.items? = some items →
      (∃ (rounds : List Round) (stop : Stop) (t : Frame),
        ((standard limit).site means iteration outer).IteratesOver v (s.begin iteration outer)
          rounds stop t ∧
        (standard limit).inside means iteration outer s =
          stop.elim (.done .ok (t.returnTo shared (s.begin iteration outer)))
            (fun _ _ => .done .ok (t.returnTo shared (s.begin iteration outer))) (.exhausted t)) ∧
      (∃ t, (standard limit).execute (means + 1) making outer s = .done .ok t ∧
        ∀ outcomes u, Draws limit key t outcomes u →
          (∀ (i : Nat) (outcome : Outcome), outcomes[i]? = some outcome →
            outcome = .value (items[i]?.getD (.bool true))) ∧
          ∀ step depth, TakesStep limit key step depth u → ∀ means, ∃ w,
            (standard limit).execute (means + 1) step depth u =
              .done (.value (items[outcomes.length]?.getD (.bool true))) w) ∧
      ∀ (i : Nat) (item : Value),
        items[i]? = some item ↔ ∃ entry, v.EntryAt i entry ∧ item = v.itemOf entry := by
  subst hv
  have hsame := read_begin_eq s iteration making outer source
  have hforIn : (iteration.name, Runner.forIn) ∈ builtins := by simp [builtins, hover.name]
  have hmake : (making.name, Runner.makeIterator) ∈ builtins := by simp [builtins, hmakes.name]
  have hiterable {items : List Value}
      (hitems : ((s.begin iteration outer).read source).items? = some items) :
      ∃ entries, ((s.begin iteration outer).read source).entries? = some entries := by
    rw [← Option.isSome_iff_exists, Value.isSome_entries?, hitems]
    rfl
  refine ⟨fun hnone => ⟨?_, ?_⟩, fun items hitems => ⟨?_, ?_, fun i item => ?_⟩⟩
  · have hentries : ((s.begin iteration outer).read source).entries? = none := by
      rw [← Option.not_isSome_iff_eq_none, Value.isSome_entries?, hnone]
      simp
    exact (inside_of_mem hforIn hwithin means s).trans
      (@Runner.forIn_of_none ((standard limit).site means iteration outer) _ _ _ hover hentries)
  · have hmade := (inside_of_mem hmake hwithin means s).trans
      (@Runner.makeIterator_of_none ((standard limit).site means making outer) _ _ hmakes.key _
        hmakes.source (by rw [hsame, hnone]))
    rwa [hsame] at hmade
  · obtain ⟨entries, hentries⟩ := hiterable hitems
    have hcalls : ¬((standard limit).site means iteration outer).calls := by
      simp [Site.calls, hover.name]
    have hexec := (standard limit).run_ne_failed means iteration outer
    obtain ⟨rounds, stop, t, hrounds⟩ := Site.exists_rounds hexec true bindEntry entries
      (s.begin iteration outer)
    refine ⟨rounds, stop, t, hrounds.iteratesOver hcalls hordered hentries, ?_⟩
    exact (inside_of_mem hforIn hwithin means s).trans
      (@Runner.forIn_of_rounds ((standard limit).site means iteration outer) _ _ _ hover _ hentries
        _ _ _ hrounds)
  · obtain ⟨t, hmade, hleft⟩ := exists_execute_makeIterator hmakes.name hwithin hmakes.key
      hmakes.source (by rw [hsame, hitems]) means
    refine ⟨t, hmade, fun outcomes u hdraws => ?_⟩
    obtain ⟨hgiven, hrest⟩ := hdraws.eq hdepth htime hleft
    refine ⟨hgiven, fun step depth hstep means => ?_⟩
    obtain ⟨w, hw, _⟩ := hstep.exists_execute hdepth htime hrest means
    rw [Value.given_drop] at hw
    exact ⟨w, hw⟩
  · obtain ⟨entries, hentries⟩ := hiterable hitems
    rw [Value.items?_eq_map hentries] at hitems
    obtain rfl := Option.some.inj hitems
    rw [List.getElem?_map, Option.map_eq_some_iff]
    simp only [Value.getElem?_entries? hordered hentries, eq_comm]

/-- A tag that goes over an iterator and takes a step of it in each round. -/
def advancing : Tag :=
  ⟨"for_in", [("key", some "it"), ("pass_through", some "yes")],
    [.tag ⟨"iter_next", [("key", some "it")], [], .nowhere⟩], .nowhere⟩

/-- A tag that makes another iterator of what is left. -/
def rewinding : Tag := ⟨"iter_make", [("key", some "other"), ("src", some "it")], [], .nowhere⟩

/-- A tag that takes a step of that. -/
def stepping : Tag := ⟨"iter_next", [("key", some "other")], [], .nowhere⟩

/-- A frame with an iterator that has given out its first item. -/
def partlyRead : Frame :=
  ⟨[("it", .iter [.int 1, .str "é", .bool false] 1)], World.ofFiles (.empty []) "" .bare⟩

theorem partlyRead_iterated :
    (∃ rounds stop t, ((standard none).site 2 advancing 0).IteratesOver
      (.iter [.int 1, .str "é", .bool false] 1) (partlyRead.begin advancing 0) rounds stop t) ∧
    ∃ t u, (standard none).execute 3 rewinding 0 partlyRead = .done .ok t ∧
      (standard none).execute 1 stepping 0 t = .done (.value (.str "é")) u := by
  have hwithin : ∀ d, (none : Option Nat) = some d → (0 + 1 : Depth).number ≤ d :=
    fun _ h => by cases h
  have hover : advancing.Iterates (partlyRead.begin advancing 0) "it" true := ⟨rfl, rfl, rfl, rfl⟩
  have hmakes : rewinding.MakesIterator (partlyRead.begin rewinding 0) "it" "other" :=
    ⟨rfl, rfl, rfl⟩
  have hheld : (partlyRead.begin advancing 0).read "it" = .iter [.int 1, .str "é", .bool false] 1 :=
    rfl
  have h := @execute_iteration_and_iterator none 2 advancing rewinding 0 partlyRead "it" "other" true
    hwithin hover hmakes (by decide) (by decide) _ hheld (fun _ h => by cases h)
  obtain ⟨⟨rounds, stop, t, hrounds, -⟩, ⟨u, hmade, hdraws⟩, -⟩ := h.2 [.str "é", .bool false] rfl
  have hplain : IsPlainKey "other" := isPlainKey_of_notMem (by decide) rfl rfl
  have hstep : TakesStep none "other" stepping 0 u := ⟨rfl, hwithin, hplain.requireKey rfl _⟩
  obtain ⟨w, hw⟩ := (hdraws [] u (.none u)).2 stepping 0 hstep 0
  exact ⟨⟨rounds, stop, t, hrounds⟩, u, w, hmade, hw⟩

end Engine

end TagScript
