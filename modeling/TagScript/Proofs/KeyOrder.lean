import Mathlib.Data.Option.Basic
import TagScript.Proofs.Globals
import TagScript.Proofs.Iteration

/-!
# Keys in ascending order

Names stand in ascending order wherever they are kept: those of the variables of
a scope and those of the members of every map, however deep the map lies in a
value. A value, some variables or a frame is in order if this is so of all the
dictionaries in it.

No dictionary gets out of order by itself, as all of them are made by
insertions. What is put into one may be out of order, however, and therefore
everything that values come from is looked at here: parts of values in order,
the texts that JSON and tables are read from, the words that a boundary binds.
-/

namespace TagScript

/-! ## Values and variables in order -/

/-- **A value in order**: the keys of every map in it ascend. -/
inductive Value.InOrder : Value → Prop where
  | null : InOrder .null
  | bool (b : Bool) : InOrder (.bool b)
  | int (n : Int64) : InOrder (.int n)
  | float (x : Binary64) : InOrder (.float x)
  | str (s : String) : InOrder (.str s)
  | array {items : List Value} (h : ∀ item ∈ items, InOrder item) : InOrder (.array items)
  | map {entries : Dict Value} (hkeys : entries.Ascending)
      (h : ∀ entry ∈ entries, InOrder entry.2) : InOrder (.map entries)
  | iter {items : List Value} (position : Nat) (h : ∀ item ∈ items, InOrder item) :
      InOrder (.iter items position)
  | handler (h : Handler) : InOrder (.handler h)

/-- **Variables in order**: their names ascend, and their values are in order. -/
structure Vars.InOrder (vars : Vars) : Prop where
  /-- The names ascend. -/
  ascending : vars.Ascending
  /-- The values are in order. -/
  values : ∀ entry ∈ vars, entry.2.InOrder

namespace Value

/-- The members of a map are as variables are. -/
theorem inOrder_map_iff {entries : Dict Value} :
    (Value.map entries).InOrder ↔ Vars.InOrder entries := by
  constructor
  · rintro (_ | _ | _ | _ | _ | _ | ⟨hkeys, h⟩ | _ | _)
    exact ⟨hkeys, h⟩
  · exact fun h => .map h.ascending h.values

/-- A map in order has ascending keys. -/
theorem InOrder.isOrdered {v : Value} (h : v.InOrder) : v.IsOrdered := by
  rintro entries rfl
  exact (inOrder_map_iff.1 h).ascending

theorem inOrder_characters (s : String) : ∀ item ∈ characters s, item.InOrder := by
  intro item hitem
  obtain ⟨c, _, rfl⟩ := List.mem_map.1 hitem
  exact .str _

/-- **What a value in order is gone through by is in order**: its items, -/
theorem InOrder.items? {v : Value} (h : v.InOrder) {items : List Value}
    (hitems : v.items? = some items) : ∀ item ∈ items, item.InOrder := by
  cases h with
  | null | bool | int | float | handler => cases hitems
  | str s =>
    obtain rfl := Option.some.inj hitems
    exact inOrder_characters s
  | array h =>
    obtain rfl := Option.some.inj hitems
    exact h
  | map =>
    obtain rfl := Option.some.inj hitems
    intro item hitem
    obtain ⟨entry, _, rfl⟩ := List.mem_map.1 hitem
    exact .str _
  | iter position h =>
    obtain rfl := Option.some.inj hitems
    exact fun item hitem => h item (List.mem_of_mem_drop hitem)

/-- and its entries, key and value. -/
theorem InOrder.entries? {v : Value} (h : v.InOrder) {entries : List (Value × Value)}
    (hentries : v.entries? = some entries) :
    ∀ entry ∈ entries, entry.1.InOrder ∧ entry.2.InOrder := by
  intro entry hentry
  by_cases hmap : ∃ members, v = .map members
  · obtain ⟨members, rfl⟩ := hmap
    obtain rfl := Option.some.inj hentries
    obtain ⟨member, hmember, rfl⟩ := List.mem_map.1 hentry
    exact ⟨.str _, (inOrder_map_iff.1 h).values member hmember⟩
  · have hnumbered : v.entries? = v.items?.map numbered := by
      cases v with
      | map members => exact absurd ⟨members, rfl⟩ hmap
      | _ => rfl
    rw [hnumbered] at hentries
    obtain ⟨items, hitems, rfl⟩ := Option.map_eq_some_iff.1 hentries
    obtain ⟨⟨item, n⟩, hmem, rfl⟩ := List.mem_map.1 hentry
    exact ⟨.int _, h.items? hitems item (List.fst_mem_of_mem_zipIdx hmem)⟩

/-- What an iterator gives out is in order, and so is the iterator after it. -/
theorem inOrder_advance {items : List Value} (h : ∀ item ∈ items, item.InOrder) (position : Nat) :
    ((advance items position).1.getD (.bool true)).InOrder ∧
      (advance items position).2.InOrder := by
  unfold advance
  split
  · next item hitem => exact ⟨h item (List.mem_of_getElem? hitem), .iter _ h⟩
  · exact ⟨.bool true, .iter _ h⟩

end Value

namespace Vars.InOrder

variable {vars : Vars}

theorem empty : Vars.InOrder .empty where
  ascending := .nil
  values := fun _ h => absurd h List.not_mem_nil

/-- **Binding variables keeps them in order.** -/
theorem insertAll (h : vars.InOrder) {bindings : List (String × Value)}
    (hbindings : ∀ binding ∈ bindings, binding.2.InOrder) :
    Vars.InOrder (vars.insertAll bindings) where
  ascending := h.ascending.insertAll bindings
  values := fun entry hentry =>
    (Dict.mem_or_mem_of_mem_insertAll hentry).elim (hbindings entry) (h.values entry)

theorem insert (h : vars.InOrder) (key : String) {value : Value} (hvalue : value.InOrder) :
    Vars.InOrder (vars.insert key value) := by
  have hbinding : ∀ binding ∈ [(key, value)], binding.2.InOrder :=
    List.forall_mem_singleton.2 hvalue
  exact h.insertAll hbinding

theorem ofList {bindings : List (String × Value)}
    (h : ∀ binding ∈ bindings, binding.2.InOrder) : Vars.InOrder (Dict.ofList bindings) :=
  empty.insertAll h

theorem erase (h : vars.InOrder) (key : String) : Vars.InOrder (vars.erase key) where
  ascending := h.ascending.erase key
  values := fun entry hentry => h.values entry (List.mem_filter.1 hentry).1

/-- What is read from them is in order. -/
theorem of_get? (h : vars.InOrder) {key : String} {value : Value}
    (hvalue : vars.get? key = some value) : value.InOrder :=
  h.values _ (Dict.mem_of_get?_eq_some hvalue)

/-- Privileges are kept as texts. -/
theorem grant (h : vars.InOrder) (names : List String) :
    Vars.InOrder (Privilege.grant vars names) := by
  refine h.insert _ (.array fun item hitem => ?_)
  obtain ⟨name, _, rfl⟩ := List.mem_map.1 hitem
  exact .str name

end Vars.InOrder

/-! ## What is read from texts

Of all that a script reads only JSON has maps, and these are made by insertions. -/

namespace Json

theorem inOrder_of_mem_double? (negative : Bool) (n : Nat) (e : Int) :
    ∀ v ∈ double? negative n e, v.InOrder :=
  Option.forall_mem_map.2 fun _ _ => .float _

theorem inOrder_whole (negative : Bool) (n : Nat) : (whole negative n).InOrder := by
  unfold whole
  split
  · split
    · exact .float _
    · exact .int _
  · split
    · exact .int _
    · exact .float _

theorem inOrder_of_mem_readUnsigned (negative : Bool) (cs : List Char) :
    ∀ r ∈ readUnsigned negative cs, r.1.InOrder := by
  unfold readUnsigned
  dsimp only
  split
  · exact nofun
  split
  · split
    · exact nofun
    split
    · exact nofun
    · exact Option.forall_mem_map.2 (inOrder_of_mem_double? _ _ _)
  · split
    · exact nofun
    · split
      · rintro _ ⟨⟩
        exact inOrder_whole _ _
      · exact Option.forall_mem_map.2 (inOrder_of_mem_double? _ _ _)
    · exact Option.forall_mem_map.2 (inOrder_of_mem_double? _ _ _)

theorem inOrder_of_mem_readScalar (cs : List Char) : ∀ r ∈ readScalar cs, r.1.InOrder := by
  unfold readScalar
  split
  · exact Option.forall_mem_map.2 fun _ _ => .str _
  · exact inOrder_of_mem_readUnsigned _ _
  · exact Option.forall_mem_map.2 fun _ _ => .bool _
  · exact Option.forall_mem_map.2 fun _ _ => .bool _
  · exact Option.forall_mem_map.2 fun _ _ => .null
  · exact inOrder_of_mem_readUnsigned _ _

section Nested

variable {item : List Char → Option (Value × List Char)}
  (hitem : ∀ cs, ∀ r ∈ item cs, r.1.InOrder)
include hitem

theorem inOrder_of_mem_readItems (bound : Nat) (cs : List Char) :
    ∀ r ∈ readItems item bound cs, ∀ v ∈ r.1, v.InOrder := by
  induction bound generalizing cs with
  | zero => exact nofun
  | succ bound ih =>
    unfold readItems
    split
    · exact nofun
    next v rest hv =>
    have hfirst : v.InOrder := hitem cs (v, rest) hv
    split
    · exact Option.forall_mem_map.2 fun more hmore =>
        List.forall_mem_cons.2 ⟨hfirst, ih _ more hmore⟩
    · rintro _ ⟨⟩
      exact List.forall_mem_singleton.2 hfirst
    · exact nofun

theorem inOrder_of_mem_readMember (cs : List Char) : ∀ r ∈ readMember item cs, r.1.2.InOrder := by
  unfold readMember
  split
  · split
    · exact nofun
    split
    · exact Option.forall_mem_map.2 (hitem _)
    · exact nofun
  · exact nofun

theorem inOrder_of_mem_readMembers (bound : Nat) (cs : List Char) :
    ∀ r ∈ readMembers item bound cs, ∀ m ∈ r.1, m.2.InOrder := by
  induction bound generalizing cs with
  | zero => exact nofun
  | succ bound ih =>
    unfold readMembers
    split
    · exact nofun
    next m rest hm =>
    have hfirst : m.2.InOrder := inOrder_of_mem_readMember hitem cs (m, rest) hm
    split
    · exact Option.forall_mem_map.2 fun more hmore =>
        List.forall_mem_cons.2 ⟨hfirst, ih _ more hmore⟩
    · rintro _ ⟨⟩
      exact List.forall_mem_singleton.2 hfirst
    · exact nofun

end Nested

theorem inOrder_of_mem_readValue (bound levels : Nat) (cs : List Char) :
    ∀ r ∈ readValue bound levels cs, r.1.InOrder := by
  induction levels generalizing cs with
  | zero => exact inOrder_of_mem_readScalar _
  | succ levels ih =>
    unfold readValue
    split
    · split
      · rintro _ ⟨⟩
        exact .array nofun
      · exact Option.forall_mem_map.2 fun r hr => .array (inOrder_of_mem_readItems ih _ _ r hr)
    · split
      · rintro _ ⟨⟩
        exact Value.inOrder_map_iff.2 .empty
      · exact Option.forall_mem_map.2 fun r hr =>
          Value.inOrder_map_iff.2 (.ofList (inOrder_of_mem_readMembers ih _ _ r hr))
    · exact inOrder_of_mem_readScalar _

/-- **What a text spells is in order**, however its members stand there. -/
theorem inOrder_of_parse? {s : String} {v : Value} (h : parse? s = some v) : v.InOrder := by
  unfold parse? at h
  split at h
  · next w rest hw =>
    split at h
    · obtain rfl := Option.some.inj h
      exact inOrder_of_mem_readValue _ _ _ (w, rest) hw
    · cases h
  · cases h

end Json

namespace Table

/-- A field is a text or null. -/
theorem FieldPolicy.inOrder_value (policy : FieldPolicy) (field : Option String) :
    (policy.value field).InOrder := by
  unfold value
  split
  · split
    · exact .null
    · exact .str _
  · exact .str _

theorem inOrder_of_mem_assignments {policy : FieldPolicy} {source : String} :
    ∀ binding ∈ assignments policy source, binding.2.InOrder := by
  intro binding hbinding
  obtain ⟨record, _, hrecord⟩ := List.mem_filterMap.1 hbinding
  dsimp only at hrecord
  split at hrecord
  · cases hrecord
  · obtain rfl := Option.some.inj hrecord
    exact policy.inOrder_value _

theorem Sheet.inOrder_of_mem_rows {policy : FieldPolicy} {source : String} :
    ∀ row ∈ (Sheet.ofText policy source).rows, Vars.InOrder row := by
  intro row hrow
  obtain ⟨record, _, rfl⟩ := List.mem_map.1 hrow
  refine .ofList fun binding hbinding => ?_
  obtain ⟨column, _, rfl⟩ := List.mem_map.1 hbinding
  exact policy.inOrder_value _

end Table

/-! ## Frames in order -/

/-- **A frame in order**: both layers of variables are. -/
structure Frame.InOrder (s : Frame) : Prop where
  /-- The local variables are. -/
  locals : Vars.InOrder s.locals
  /-- The global variables are. -/
  globals : Vars.InOrder s.world.globals

namespace Frame.InOrder

variable {s : Frame}

theorem lookup (h : s.InOrder) {key : String} {value : Value} (hvalue : s.lookup key = some value) :
    value.InOrder := by
  obtain hlocal | ⟨_, hglobal⟩ := Option.or_eq_some_iff.1 hvalue
  · exact h.locals.of_get? hlocal
  · exact h.globals.of_get? hglobal

/-- **What is read in order is in order.** -/
theorem read (h : s.InOrder) (key : String) : (s.read key).InOrder := by
  unfold Frame.read
  cases hvalue : s.lookup key with
  | none => exact .null
  | some value => exact h.lookup hvalue

theorem setLocal (h : s.InOrder) (key : String) {value : Value} (hvalue : value.InOrder) :
    (s.setLocal key value).InOrder :=
  ⟨h.locals.insert key hvalue, h.globals⟩

theorem set (h : s.InOrder) (key : String) {value : Value} (hvalue : value.InOrder) (global : Bool) :
    (s.set key value global).InOrder := by
  cases global with
  | true => exact ⟨h.locals, h.globals.insert key hvalue⟩
  | false => exact h.setLocal key hvalue

/-- What the boundary around a tag does keeps the order: on the way in, -/
theorem enter (h : s.InOrder) (tag : Tag) (depth : Depth) : (s.enter tag depth).InOrder where
  locals := (h.locals.insert _ (.int _)).insert _ (.str _)
  globals := (World.globals_note _ _).symm ▸ h.globals

/-- when the runner is called, -/
theorem invoke (h : s.InOrder) (tag : Tag) (depth : Depth) : (s.invoke tag depth).InOrder where
  locals := h.locals
  globals := (World.globals_note _ _).symm ▸ h.globals

theorem begin (h : s.InOrder) (tag : Tag) (outer : Depth) : (s.begin tag outer).InOrder :=
  (h.enter tag _).invoke tag _

/-- if the runner faults -/
theorem fault (h : s.InOrder) (tag : Tag) (depth : Depth) (fault : Fault) :
    (s.fault tag depth fault).InOrder where
  locals := by
    obtain ⟨files, locks, heq⟩ := s.fault_eq tag depth fault
    rw [heq]
    exact h.locals.insert _ (.str _)
  globals := (s.globals_fault tag depth fault).symm ▸ h.globals

/-- and on the way out. -/
theorem leave (h : s.InOrder) (tag : Tag) (depth : Depth) (outcome : Outcome) :
    (s.leave tag depth outcome).InOrder where
  locals := h.locals
  globals := (World.globals_note _ _).symm ▸ h.globals

end Frame.InOrder

end TagScript
