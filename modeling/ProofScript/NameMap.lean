/-!
# Finite maps keyed by names

A map from names to values, held as a list that is sorted by name. The order is the order of code
points, so listing a map does not depend on how it was built: `NameMap.entries` of two maps with the
same look-ups are the same list. Sets of names are maps to the unit type.
-/

namespace ProofScript

namespace NameMap

variable {α : Type}

/-- Whether the names of a list of entries are strictly increasing. -/
def Sorted (entries : List (String × α)) : Prop := entries.Pairwise fun a b => a.1 < b.1

/-- Puts an entry into a sorted list, in the place of an entry with the same name. -/
def put (name : String) (value : α) : List (String × α) → List (String × α)
  | [] => [(name, value)]
  | entry :: rest =>
    if name < entry.1 then (name, value) :: entry :: rest
    else if name = entry.1 then (name, value) :: rest
    else entry :: put name value rest

/-- The names after an entry is put in. -/
theorem mem_put {name : String} {value : α} {entries : List (String × α)} {e : String × α}
    (h : e ∈ put name value entries) : e = (name, value) ∨ e ∈ entries := by
  induction entries with
  | nil => simpa [put] using h
  | cons entry rest ih =>
    unfold put at h
    split at h
    · simpa using h
    · split at h
      · rcases List.mem_cons.1 h with h | h
        · exact .inl h
        · exact .inr (List.mem_cons_of_mem _ h)
      · rcases List.mem_cons.1 h with h | h
        · exact .inr (h ▸ List.mem_cons_self ..)
        · exact (ih h).imp id (List.mem_cons_of_mem _)

/-- Putting an entry in keeps the order. -/
theorem Sorted.put {name : String} {value : α} {entries : List (String × α)}
    (h : Sorted entries) : Sorted (NameMap.put name value entries) := by
  induction entries with
  | nil => simp [NameMap.put, Sorted]
  | cons entry rest ih =>
    obtain ⟨hhead, hrest⟩ := List.pairwise_cons.1 h
    unfold NameMap.put
    split
    · rename_i hlt
      refine List.pairwise_cons.2 ⟨fun e he => ?_, h⟩
      rcases List.mem_cons.1 he with rfl | he
      · exact hlt
      · exact String.lt_trans hlt (hhead e he)
    · split
      · rename_i heq
        exact List.pairwise_cons.2 ⟨fun e he => by simpa [heq] using hhead e he, hrest⟩
      · rename_i hlt hne
        refine List.pairwise_cons.2 ⟨fun e he => ?_, ih hrest⟩
        rcases mem_put he with rfl | he
        · exact Decidable.byContradiction fun hge =>
            hne (String.le_antisymm (String.not_lt.1 hge) (String.not_lt.1 hlt))
        · exact hhead e he

end NameMap

/-- A finite map from names to values. -/
structure NameMap (α : Type) where
  /-- The entries in the order of their names. -/
  entries : List (String × α)
  /-- Each name occurs once, and the names are in order. -/
  sorted : NameMap.Sorted entries

namespace NameMap

variable {α : Type}

/-- The map without entries. -/
def empty : NameMap α := ⟨[], List.Pairwise.nil⟩

instance : Inhabited (NameMap α) := ⟨empty⟩

/-- Adds an entry, or replaces the entry with the same name. -/
def insert (m : NameMap α) (name : String) (value : α) : NameMap α :=
  ⟨put name value m.entries, m.sorted.put⟩

/-- Removes the entry of a name. -/
def erase (m : NameMap α) (name : String) : NameMap α :=
  ⟨m.entries.filter fun e => e.1 != name, List.Pairwise.filter _ m.sorted⟩

/-- The value that belongs to a name. -/
def get? (m : NameMap α) (name : String) : Option α := m.entries.lookup name

/-- Whether a name has a value. -/
def contains (m : NameMap α) (name : String) : Bool := (m.get? name).isSome

/-- The names in order. -/
def names (m : NameMap α) : List String := m.entries.map Prod.fst

/-- No name has a value in the empty map. -/
@[simp] theorem get?_empty (name : String) : (empty : NameMap α).get? name = none := rfl

/-- The first entry of a list settles its own name, and no other name. -/
theorem lookup_entry (name key : String) (value : α) (rest : List (String × α)) :
    List.lookup name ((key, value) :: rest) = if name = key then some value
      else List.lookup name rest := by
  by_cases h : name = key
  · simp [h]
  · simp [List.lookup_cons, h, beq_eq_false_iff_ne.2 h]

/-- Adding an entry changes what belongs to its name, and nothing else. -/
theorem get?_insert (m : NameMap α) (name : String) (value : α) (other : String) :
    (m.insert name value).get? other = if other = name then some value else m.get? other := by
  simp only [insert, get?]
  induction m.entries with
  | nil => simp only [put, lookup_entry]
  | cons entry rest ih =>
    obtain ⟨key, old⟩ := entry
    unfold put
    split
    · simp only [lookup_entry]
    · split
      · rename_i heq
        subst heq
        by_cases h : other = name <;> simp [lookup_entry, h]
      · rename_i hne
        by_cases h : other = key
        · subst h
          simp [Ne.symm hne]
        · simp [lookup_entry, h, ih]

end NameMap

/-- A finite set of names. -/
abbrev NameSet := NameMap Unit

namespace NameSet

/-- Adds a name. -/
def add (s : NameSet) (name : String) : NameSet := s.insert name ()

/-- The set of the names in a list. -/
def ofList (names : List String) : NameSet := names.foldl add NameMap.empty

end NameSet

end ProofScript
