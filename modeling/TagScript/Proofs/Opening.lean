import TagScript.Proofs.Act

/-!
# How blocks begin

Before a block executes the first tag inside it, it reads its attributes
and its source, and any of this may be wrong. `Site.Opens` says when
nothing is: over which tags the block then passes, how often it does so at
most, and in which world it begins. `Site.Declines` says how a block ends
that does not come so far. Every block does the one or the other:
`Site.exists_opensOrDeclines`.
-/

namespace TagScript

/-- The tags that go over other tags in order. -/
def blockNames : List String :=
  ["root", "sub", "loop", "for_in", "load_data", "then", "else", "when", "when_others", "call",
    "cond_call"]

/-- The assertion of a branch of a selection, and the tags that are left for
its body. -/
inductive Tag.Asserts (tag : Tag) : Tag → List Tag → Prop where
  /-- It is made of the branch's own attributes. -/
  | own {assertion : Tag} (h : tag.ownAssertion? = some assertion) : Asserts tag assertion tag.tags
  /-- It is the first tag inside. -/
  | first {assertion : Tag} {body : List Tag} (hown : tag.ownAssertion? = none)
      (htags : tag.tags = assertion :: body) (h : assertion.isAssertion = true) :
      Asserts tag assertion body

/-- **When a block comes to its first pass**, over which tags and how often
it goes at most, and in which world it begins. Its attributes can be read,
its source is there; a branch of a selection has matched, and a call finds
its procedure and is allowed to go on to it. -/
inductive Site.Opens (site : Site) (s : Frame) : List Tag → Nat → World → Prop where
  | root (h : site.tag.name = "root") : Opens site s site.tag.tags 1 s.world
  | sub (h : site.tag.name = "sub") {shared : Bool}
      (hshared : Run.passThrough site.tag s = .done shared s) :
      Opens site s site.tag.tags 1 s.world
  | loop (h : site.tag.name = "loop") {shared : Bool}
      (hshared : Run.passThrough site.tag s = .done shared s) :
      Opens site s site.tag.tags site.rounds s.world
  | forIn (h : site.tag.name = "for_in") {shared : Bool}
      (hshared : Run.passThrough site.tag s = .done shared s)
      (hcomputed : site.tag.hasAttr "key_eval" = false) {key : String}
      (hkey : Run.requireKey site.tag "key" s = .done key s) {entries : List (Value × Value)}
      (hentries : (s.read key).entries? = some entries) :
      Opens site s site.tag.tags entries.length s.world
  | loadSheet (h : site.tag.name = "load_data")
      (htype : Run.checkTableType site.tag s = .done () s)
      (hencoding : Run.checkEncoding site.tag s = .done () s) {shared : Bool}
      (hshared : Run.passThrough site.tag s = .done shared s) {policy : Table.FieldPolicy}
      (hpolicy : Run.fieldPolicy site.tag s = .done policy s) {name source : String}
      (hfile : Run.requireKey site.tag "name" s = .done name s)
      (hsource : Run.readFile name s = .done source s) :
      Opens site s site.tag.tags (Table.Sheet.ofText policy source).rows.length s.world
  | branch (h : site.tag.name = "then" ∨ site.tag.name = "else") :
      Opens site s site.tag.tags 1 s.world
  | whenHolds (h : site.tag.name = "when") {assertion : Tag} {body : List Tag}
      (hassertion : site.tag.Asserts assertion body) {verdict : Outcome} {t : Frame}
      (hverdict : site.run assertion s = .done verdict t) (hholds : verdict.truthy = true) :
      Opens site s body 1 t.world
  | otherwise (h : site.tag.name = "when_others") : Opens site s site.tag.tags 1 s.world
  | call (h : site.tag.name = "call") {name : String}
      (hkey : Run.requireKey site.tag "name" s = .done name s) {procedure : Tag}
      (hprocedure : s.world.procedures.get? name = some procedure) {shared : Bool}
      (hshared : Run.passThrough site.tag s = .done shared s) :
      Opens site s procedure.tags 1 (s.world.note (.called site.tag name))
  | conditionalCall (h : site.tag.name = "cond_call") {name : String}
      (hkey : Run.requireKey site.tag "name" s = .done name s)
      (hallowed : (Runner.isSwitchedOn s.locals name && Privilege.holds s.locals name) = true)
      {procedure : Tag} (hprocedure : s.world.procedures.get? name = some procedure)
      {shared : Bool} (hshared : Run.passThrough site.tag s = .done shared s) :
      Opens site s procedure.tags 1 (s.world.note (.called site.tag name))

/-- **How a block ends that comes to no pass.** -/
inductive Site.Declines (site : Site) (s : Frame) : Ending Outcome → Prop where
  /-- It faults on its attributes or its source, and has done nothing. -/
  | refused (fault : Fault) : Declines site s (.failed fault s)
  /-- It is a branch of a selection that does not match. -/
  | unmatched (h : site.tag.name = "when") {assertion : Tag} {body : List Tag}
      (hassertion : site.tag.Asserts assertion body) {verdict : Outcome} {t : Frame}
      (hverdict : site.run assertion s = .done verdict t) (hholds : verdict.truthy = false) :
      Declines site s (.done (.branch true false) t)
  /-- It is a branch of a selection whose assertion does not end. -/
  | undecided (h : site.tag.name = "when") {assertion : Tag} {body : List Tag}
      (hassertion : site.tag.Asserts assertion body) {t : Frame}
      (hverdict : site.run assertion s = .exhausted t) : Declines site s (.exhausted t)
  /-- It is a conditional call that is passed over. -/
  | skipped (h : site.tag.name = "cond_call") {name : String}
      (hallowed : (Runner.isSwitchedOn s.locals name && Privilege.holds s.locals name) = false) :
      Declines site s (.done .ok s)

/-! ## Each kind of block opens or declines -/

namespace Runner

/-- The body of a branch of a selection follows its assertion. -/
theorem whenHolds_of_asserts {site : Site} {assertion : Tag} {body : List Tag}
    (h : site.tag.Asserts assertion body) :
    whenHolds site = site.run assertion >>= fun verdict => branchBody site verdict.truthy body := by
  cases h with
  | own h =>
    unfold whenHolds
    rw [h]
  | first hown htags h =>
    unfold whenHolds
    rw [hown, htags]
    exact if_pos h

variable {site : Site} (s : Frame)

/-- **A block comes to its first pass or declines.** -/
def OpensOrDeclines (site : Site) (s : Frame) (ending : Ending Outcome) : Prop :=
  (∃ tags rounds w, site.Opens s tags rounds w) ∨ site.Declines s ending

/-- A block whose first look fails declines. -/
theorem opensOrDeclines_bind {α : Type} {x : Run α} {f : α → Run Outcome} (hx : x.Looks)
    (hf : ∀ a, x s = .done a s → OpensOrDeclines site s (f a s)) :
    OpensOrDeclines site s ((x >>= f) s) := by
  obtain ⟨a, ha⟩ | ⟨fault, h⟩ := hx.done_or_bind_failed s f
  · rw [Run.bind_of_done ha]
    exact hf a ha
  · rw [h]
    exact .inr (.refused fault)

theorem opensOrDeclines_sub (hname : site.tag.name = "sub") :
    OpensOrDeclines site s (sub site s) :=
  opensOrDeclines_bind s (Run.looks_passThrough _) fun _ hshared =>
    .inl ⟨_, _, _, .sub hname hshared⟩

theorem opensOrDeclines_loop (hname : site.tag.name = "loop") :
    OpensOrDeclines site s (loop site s) :=
  opensOrDeclines_bind s (Run.looks_passThrough _) fun _ hshared =>
    .inl ⟨_, _, _, .loop hname hshared⟩

theorem opensOrDeclines_forIn (hname : site.tag.name = "for_in") :
    OpensOrDeclines site s (forIn site s) := by
  refine opensOrDeclines_bind s (Run.looks_passThrough _) fun shared hshared => ?_
  dsimp only
  by_cases hcomputed : site.tag.hasAttr "key_eval" = true
  · rw [if_pos hcomputed]
    exact .inr (.refused _)
  rw [if_neg hcomputed]
  refine opensOrDeclines_bind s (Run.looks_requireKey _ _) fun key hkey => ?_
  rw [Run.bind_of_done (show Run.read key s = .done (s.read key) s from rfl)]
  cases hentries : (s.read key).entries? with
  | none => exact .inr (.refused _)
  | some entries =>
    exact .inl ⟨_, _, _, .forIn hname hshared (Bool.eq_false_iff.2 hcomputed) hkey hentries⟩

/-- What a tag that goes over a sheet does with its rows. -/
def overRows (site : Site) (shared : Bool) (sheet : Table.Sheet) : Run Unit :=
  Run.forEach (fun item => Run.within shared do
    Run.change fun s => { s with locals := rowScope sheet.columns item.1 (item.2 + 1) s.locals }
    site.completes) sheet.rows.zipIdx

/-- **Once everything is read, there are the rows to go over**: the lines are
counted before and no longer after them. -/
theorem loadSheet_of_source {s : Frame} (htype : Run.checkTableType site.tag s = .done () s)
    (hencoding : Run.checkEncoding site.tag s = .done () s) {shared : Bool}
    (hshared : Run.passThrough site.tag s = .done shared s) {policy : Table.FieldPolicy}
    (hpolicy : Run.fieldPolicy site.tag s = .done policy s) {name source : String}
    (hfile : Run.requireKey site.tag "name" s = .done name s)
    (hsource : Run.readFile name s = .done source s) :
    loadSheet site s = (do
      overRows site shared (Table.Sheet.ofText policy source)
      Run.eraseLocal Reserved.loadedDataCount
      pure .ok : Run Outcome) (s.setLocal Reserved.loadedDataCount
        (.int (Int64.ofNat (Table.Sheet.ofText policy source).count))) := by
  unfold loadSheet
  rw [Run.bind_of_done htype, Run.bind_of_done hencoding, Run.bind_of_done hshared,
    Run.bind_of_done hpolicy, Run.bind_of_done hfile, Run.bind_of_done hsource]
  rfl

theorem opensOrDeclines_loadSheet (hname : site.tag.name = "load_data") :
    OpensOrDeclines site s (loadSheet site s) := by
  refine opensOrDeclines_bind s (Run.looks_checkTableType _) fun _ htype => ?_
  refine opensOrDeclines_bind s (Run.looks_checkEncoding _) fun _ hencoding => ?_
  refine opensOrDeclines_bind s (Run.looks_passThrough _) fun shared hshared => ?_
  refine opensOrDeclines_bind s (Run.looks_fieldPolicy _) fun policy hpolicy => ?_
  refine opensOrDeclines_bind s (Run.looks_requireKey _ _) fun name hfile => ?_
  refine opensOrDeclines_bind s (Run.looks_readFile _) fun source hsource => ?_
  exact .inl ⟨_, _, _, .loadSheet hname htype hencoding hshared hpolicy hfile hsource⟩

/-- A branch of a selection opens exactly if its assertion holds. -/
theorem opensOrDeclines_of_asserts (hexec : ∀ child s fault t, site.run child s ≠ .failed fault t)
    (hname : site.tag.name = "when") {assertion : Tag} {body : List Tag}
    (hassertion : site.tag.Asserts assertion body) :
    OpensOrDeclines site s (whenHolds site s) := by
  rw [whenHolds_of_asserts hassertion]
  cases hverdict : site.run assertion s with
  | done verdict t =>
    cases hholds : verdict.truthy with
    | true => exact .inl ⟨_, _, _, .whenHolds hname hassertion hverdict hholds⟩
    | false =>
      rw [Run.bind_of_done hverdict, hholds]
      exact .inr (.unmatched hname hassertion hverdict hholds)
  | failed fault t => exact absurd hverdict (hexec _ _ _ _)
  | exhausted t =>
    rw [Run.bind_of_exhausted hverdict]
    exact .inr (.undecided hname hassertion hverdict)

theorem opensOrDeclines_whenHolds (hexec : ∀ child s fault t, site.run child s ≠ .failed fault t)
    (hname : site.tag.name = "when") : OpensOrDeclines site s (whenHolds site s) := by
  cases hown : site.tag.ownAssertion? with
  | some assertion => exact opensOrDeclines_of_asserts s hexec hname (.own hown)
  | none =>
    cases htags : site.tag.tags with
    | nil =>
      unfold whenHolds
      rw [hown, htags]
      exact .inr (.refused _)
    | cons first body =>
      by_cases hfirst : first.isAssertion = true
      · exact opensOrDeclines_of_asserts s hexec hname (.first hown htags hfirst)
      · unfold whenHolds
        rw [hown, htags]
        dsimp only
        rw [if_neg hfirst]
        exact .inr (.refused _)

/-- A call opens if it finds its procedure. -/
theorem opensOrDeclines_invoke {name : String}
    (hopens : ∀ procedure shared, s.world.procedures.get? name = some procedure →
      Run.passThrough site.tag s = .done shared s → ∃ tags rounds w, site.Opens s tags rounds w) :
    OpensOrDeclines site s (invoke site name s) := by
  refine opensOrDeclines_bind s (Run.looks_look _) fun found hfound => ?_
  obtain rfl := (Ending.done.inj hfound).1
  dsimp only
  cases hprocedure : s.world.procedures.get? name with
  | none => exact .inr (.refused _)
  | some procedure =>
    refine opensOrDeclines_bind s (Run.looks_passThrough _) fun shared hshared => ?_
    exact .inl (hopens procedure shared hprocedure hshared)

theorem opensOrDeclines_call (hname : site.tag.name = "call") :
    OpensOrDeclines site s (call site s) := by
  refine opensOrDeclines_bind s (Run.looks_requireKey _ _) fun name hkey => ?_
  exact opensOrDeclines_invoke s fun procedure shared hprocedure hshared =>
    ⟨_, _, _, .call hname hkey hprocedure hshared⟩

theorem opensOrDeclines_conditionalCall (hname : site.tag.name = "cond_call") :
    OpensOrDeclines site s (conditionalCall site s) := by
  refine opensOrDeclines_bind s (Run.looks_requireKey _ _) fun name hkey => ?_
  refine opensOrDeclines_bind s (Run.looks_look _) fun locals hlocals => ?_
  obtain rfl := (Ending.done.inj hlocals).1
  dsimp only
  cases hallowed : (isSwitchedOn s.locals name && Privilege.holds s.locals name) with
  | true =>
    exact opensOrDeclines_invoke s fun procedure shared hprocedure hshared =>
      ⟨_, _, _, .conditionalCall hname hkey hallowed hprocedure hshared⟩
  | false => exact .inr (.skipped hname hallowed)

end Runner

/-- **Every block comes to its first pass or declines.** -/
theorem Site.exists_opensOrDeclines {site : Site} (hname : site.tag.name ∈ blockNames)
    (hexec : ∀ child s fault t, site.run child s ≠ .failed fault t) (s : Frame) :
    ∃ runner, (site.tag.name, runner) ∈ builtins ∧
      Runner.OpensOrDeclines site s (runner site s) := by
  simp only [blockNames, List.mem_cons, List.not_mem_nil, or_false] at hname
  obtain h | h | h | h | h | h | h | h | h | h | h := hname
  · exact ⟨Runner.root, by simp [builtins, h], .inl ⟨_, _, _, .root h⟩⟩
  · exact ⟨Runner.sub, by simp [builtins, h], Runner.opensOrDeclines_sub s h⟩
  · exact ⟨Runner.loop, by simp [builtins, h], Runner.opensOrDeclines_loop s h⟩
  · exact ⟨Runner.forIn, by simp [builtins, h], Runner.opensOrDeclines_forIn s h⟩
  · exact ⟨Runner.loadSheet, by simp [builtins, h], Runner.opensOrDeclines_loadSheet s h⟩
  · exact ⟨Runner.branch, by simp [builtins, h], .inl ⟨_, _, _, .branch (.inl h)⟩⟩
  · exact ⟨Runner.branch, by simp [builtins, h], .inl ⟨_, _, _, .branch (.inr h)⟩⟩
  · exact ⟨Runner.whenHolds, by simp [builtins, h], Runner.opensOrDeclines_whenHolds s hexec h⟩
  · exact ⟨Runner.otherwise, by simp [builtins, h], .inl ⟨_, _, _, .otherwise h⟩⟩
  · exact ⟨Runner.call, by simp [builtins, h], Runner.opensOrDeclines_call s h⟩
  · exact ⟨Runner.conditionalCall, by simp [builtins, h],
      Runner.opensOrDeclines_conditionalCall s h⟩

end TagScript
