/-!
# Dictionaries with ascending keys

Everything a script names – variables, attributes, procedures, runners,
the members of a map – is kept in a dictionary whose keys stand in
ascending order, so that listing a dictionary always lists it the same
way. A dictionary is the list of its entries; `insert` puts an entry in
its place and every other operation leaves the order alone.

The laws of reading hold for every list of entries, ordered or not: a
reading finds the first entry under its key, `insert` puts the new entry
in front of every other entry of that key, and `erase` removes all of
them.
-/

namespace TagScript

/-- **A dictionary from text to `α`**: its entries, keys ascending in the
order of their code points. -/
abbrev Dict (α : Type) := List (String × α)

namespace Dict

variable {α : Type}

/-- The dictionary without entries. -/
def empty : Dict α := []

/-- The value under a key. -/
def get? : Dict α → String → Option α
  | [], _ => none
  | (k, v) :: rest, key => if k = key then some v else get? rest key

/-- Whether there is an entry under a key. -/
def contains (d : Dict α) (key : String) : Bool := (d.get? key).isSome

/-- Binds a key, replacing the value it had. -/
def insert : Dict α → String → α → Dict α
  | [], key, value => [(key, value)]
  | (k, v) :: rest, key, value =>
    if k < key then (k, v) :: insert rest key value
    else if k = key then (key, value) :: rest
    else (key, value) :: (k, v) :: rest

/-- Removes the entries under a key. -/
def erase (d : Dict α) (key : String) : Dict α := d.filter fun entry => entry.1 ≠ key

/-- The keys, ascending. -/
def keys (d : Dict α) : List String := d.map Prod.fst

/-- Binds every entry of a list, one after the other. -/
def insertAll (d : Dict α) (entries : List (String × α)) : Dict α :=
  entries.foldl (fun d entry => d.insert entry.1 entry.2) d

/-- The dictionary of a list of entries; of two entries of one key the
later one counts. -/
def ofList (entries : List (String × α)) : Dict α := empty.insertAll entries

/-! ## What a reading sees -/

@[simp] theorem get?_nil (key : String) : get? ([] : Dict α) key = none := rfl

/-- **A key reads as it was bound.** -/
@[simp] theorem get?_insert_self (d : Dict α) (key : String) (value : α) :
    (d.insert key value).get? key = some value := by
  induction d with
  | nil => simp [insert, get?]
  | cons entry rest ih =>
    obtain ⟨k, v⟩ := entry
    by_cases hlt : k < key
    · simp [insert, get?, hlt, String.ne_of_lt hlt, ih]
    · by_cases hk : k = key <;> simp [insert, get?, hlt, hk]

/-- **Binding one key leaves the others alone.** -/
theorem get?_insert_of_ne (d : Dict α) {key other : String} (value : α) (h : other ≠ key) :
    (d.insert key value).get? other = d.get? other := by
  induction d with
  | nil => simp [insert, get?, Ne.symm h]
  | cons entry rest ih =>
    obtain ⟨k, v⟩ := entry
    by_cases hlt : k < key
    · simp [insert, get?, hlt, ih]
    · by_cases hk : k = key
      · subst hk
        simp [insert, get?, Ne.symm h]
      · simp [insert, get?, hlt, hk, Ne.symm h]

/-- What any key reads after a binding. -/
theorem get?_insert (d : Dict α) (key other : String) (value : α) :
    (d.insert key value).get? other = if other = key then some value else d.get? other := by
  by_cases h : other = key
  · subst h
    simp
  · simp [h, get?_insert_of_ne d value h]

/-- **A removed key reads as absent, and no other key is touched.** -/
theorem get?_erase (d : Dict α) (key other : String) :
    (d.erase key).get? other = if other = key then none else d.get? other := by
  induction d with
  | nil => simp [erase]
  | cons entry rest ih =>
    obtain ⟨k, v⟩ := entry
    simp only [erase] at ih
    by_cases hk : k = key
    · subst hk
      by_cases ho : other = k
      · subst ho
        simpa [erase] using ih
      · simpa [erase, get?, ho, Ne.symm ho] using ih
    · by_cases hko : k = other
      · subst hko
        simp [erase, get?, hk]
      · simpa [erase, get?, hk, hko] using ih

/-- **A binding changes nothing beside its own key.** -/
theorem erase_insert (d : Dict α) (key : String) (value : α) :
    (d.insert key value).erase key = d.erase key := by
  induction d with
  | nil => simp [insert, erase]
  | cons entry rest ih =>
    obtain ⟨k, v⟩ := entry
    unfold insert
    split
    · next hlt =>
      have hne : k ≠ key := String.ne_of_lt hlt
      simpa [erase, hne] using ih
    · split
      · next heq => simp [erase, heq]
      · simp [erase]

/-- Many bindings leave the keys alone that are not among theirs. -/
theorem get?_insertAll_of_not_mem {entries : List (String × α)} {key : String}
    (h : key ∉ entries.map Prod.fst) (d : Dict α) :
    (d.insertAll entries).get? key = d.get? key := by
  induction entries generalizing d with
  | nil => rfl
  | cons first rest ih =>
    obtain ⟨hfirst, hrest⟩ := List.ne_and_not_mem_of_not_mem_cons h
    exact (ih hrest _).trans (get?_insert_of_ne d first.2 hfirst)

/-- **A key that is bound once among many reads as it was bound.** -/
theorem get?_insertAll_of_mem {entries : List (String × α)} {key : String} {value : α}
    (hnodup : (entries.map Prod.fst).Nodup) (h : (key, value) ∈ entries) (d : Dict α) :
    (d.insertAll entries).get? key = some value := by
  induction entries generalizing d with
  | nil => exact absurd h List.not_mem_nil
  | cons first rest ih =>
    obtain ⟨hfirst, hrest⟩ := List.nodup_cons.1 hnodup
    obtain rfl | h := List.mem_cons.1 h
    · exact (get?_insertAll_of_not_mem hfirst _).trans (get?_insert_self d key value)
    · exact ih hrest h _

/-! ## What a dictionary holds -/

/-- **An insertion adds nothing but its own entry.** -/
theorem eq_or_mem_of_mem_insert {d : Dict α} {key : String} {value : α} {entry : String × α}
    (h : entry ∈ d.insert key value) : entry = (key, value) ∨ entry ∈ d := by
  induction d with
  | nil => exact .inl (List.mem_singleton.1 h)
  | cons first rest ih =>
    obtain ⟨k, v⟩ := first
    unfold insert at h
    split at h
    · obtain h | h := List.mem_cons.1 h
      · exact .inr (h ▸ List.mem_cons_self)
      · exact (ih h).imp_right (List.mem_cons_of_mem _)
    · split at h
      · exact (List.mem_cons.1 h).imp_right (List.mem_cons_of_mem _)
      · exact List.mem_cons.1 h

/-- Nor do many insertions. -/
theorem mem_or_mem_of_mem_insertAll {entries : List (String × α)} {d : Dict α}
    {entry : String × α} (h : entry ∈ d.insertAll entries) : entry ∈ entries ∨ entry ∈ d := by
  induction entries generalizing d with
  | nil => exact .inr h
  | cons first rest ih =>
    obtain h | h := ih h
    · exact .inl (List.mem_cons_of_mem _ h)
    · obtain rfl | h := eq_or_mem_of_mem_insert h
      · exact .inl List.mem_cons_self
      · exact .inr h

/-- What is read from a dictionary is one of its entries. -/
theorem mem_of_get?_eq_some {d : Dict α} {key : String} {value : α}
    (h : d.get? key = some value) : (key, value) ∈ d := by
  induction d with
  | nil => cases h
  | cons first rest ih =>
    obtain ⟨k, v⟩ := first
    unfold get? at h
    split at h
    · next hk =>
      obtain rfl := Option.some.inj h
      exact hk ▸ List.mem_cons_self
    · exact List.mem_cons_of_mem _ (ih h)

/-- What is read from the dictionary of a list is in the list. -/
theorem mem_of_get?_ofList {entries : List (String × α)} {key : String} {value : α}
    (h : (ofList entries).get? key = some value) : (key, value) ∈ entries := by
  obtain h | h := mem_or_mem_of_mem_insertAll (mem_of_get?_eq_some h)
  · exact h
  · exact absurd h List.not_mem_nil

theorem insertAll_append (d : Dict α) (xs ys : List (String × α)) :
    d.insertAll (xs ++ ys) = (d.insertAll xs).insertAll ys :=
  List.foldl_append

/-! ## Ascending keys -/

/-- **Whether the keys ascend**, as those of every dictionary do that was
made by insertions. -/
def Ascending (d : Dict α) : Prop := d.Pairwise fun a b => a.1 < b.1

instance (d : Dict α) : Decidable d.Ascending :=
  inferInstanceAs (Decidable (d.Pairwise fun a b => a.1 < b.1))

/-- **An insertion keeps the keys ascending.** -/
theorem Ascending.insert {d : Dict α} (h : d.Ascending) (key : String) (value : α) :
    (d.insert key value).Ascending := by
  induction d with
  | nil => exact List.pairwise_singleton _ _
  | cons first rest ih =>
    obtain ⟨k, v⟩ := first
    obtain ⟨hfirst, hrest⟩ := List.pairwise_cons.1 h
    unfold Dict.insert
    split
    · next hlt =>
      refine List.pairwise_cons.2 ⟨fun entry hentry => ?_, ih hrest⟩
      obtain rfl | hentry := eq_or_mem_of_mem_insert hentry
      · exact hlt
      · exact hfirst entry hentry
    · next hlt =>
      split
      · next heq =>
        subst heq
        exact List.pairwise_cons.2 ⟨hfirst, hrest⟩
      · next hne =>
        have hgt : key < k := Std.lt_of_le_of_ne hlt (Ne.symm hne)
        refine List.pairwise_cons.2 ⟨fun entry hentry => ?_, h⟩
        obtain rfl | hentry := List.mem_cons.1 hentry
        · exact hgt
        · exact String.lt_trans hgt (hfirst entry hentry)

theorem Ascending.insertAll {d : Dict α} (h : d.Ascending) (entries : List (String × α)) :
    (d.insertAll entries).Ascending := by
  induction entries generalizing d with
  | nil => exact h
  | cons first rest ih => exact ih (h.insert first.1 first.2)

theorem Ascending.erase {d : Dict α} (h : d.Ascending) (key : String) : (d.erase key).Ascending :=
  List.Pairwise.filter _ h

theorem ascending_ofList (entries : List (String × α)) : (ofList entries).Ascending :=
  Ascending.insertAll List.Pairwise.nil entries

/-- A dictionary has one entry for a key. -/
theorem Ascending.nodup_keys {d : Dict α} (h : d.Ascending) : (d.map Prod.fst).Nodup :=
  List.pairwise_map.2 (h.imp fun hlt => String.ne_of_lt hlt)

/-- A key behind all others is bound at the end. -/
theorem insert_of_forall_lt {d : Dict α} {key : String} (h : ∀ entry ∈ d, entry.1 < key)
    (value : α) : d.insert key value = d ++ [(key, value)] := by
  induction d with
  | nil => rfl
  | cons entry rest ih =>
    obtain ⟨k, v⟩ := entry
    have hk : k < key := h (k, v) List.mem_cons_self
    rw [insert, if_pos hk, ih fun entry hmem => h entry (List.mem_cons_of_mem _ hmem)]
    rfl

theorem insertAll_of_ascending {d : Dict α} {entries : List (String × α)}
    (h : Ascending (d ++ entries)) : d.insertAll entries = d ++ entries := by
  induction entries generalizing d with
  | nil => exact (List.append_nil d).symm
  | cons entry rest ih =>
    have hlt : ∀ other ∈ d, other.1 < entry.1 := fun other hmem =>
      (List.pairwise_append.1 h).2.2 other hmem entry List.mem_cons_self
    have hmove : d ++ entry :: rest = (d ++ [entry]) ++ rest := by simp
    rw [hmove] at h ⊢
    rw [← ih h, ← insert_of_forall_lt hlt]
    rfl

/-- **A list whose keys ascend is the dictionary of its entries.** -/
theorem ofList_of_ascending {entries : Dict α} (h : entries.Ascending) : ofList entries = entries :=
  insertAll_of_ascending h

end Dict

end TagScript
