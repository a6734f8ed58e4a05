import Mathlib.Data.List.Sort
import Mathlib.Tactic.Tauto
import ProofScript.NameMap

/-!
# Looking up names

A look-up in a finite map finds exactly the entries that the map lists, and the names are listed in
order. So a map is determined by its look-ups, and it can be built from its entries in any order
(`foldl_insert_entries`).
-/

namespace ProofScript

namespace NameMap

variable {α : Type} {m : NameMap α} {name : String} {a : α}

theorem get?_eq_some_iff : m.get? name = some a ↔ (name, a) ∈ m.entries := by
  obtain ⟨entries, hsorted⟩ := m
  show entries.lookup name = some a ↔ (name, a) ∈ entries
  induction entries with
  | nil => simp
  | cons entry rest ih =>
    obtain ⟨key, b⟩ := entry
    obtain ⟨hhead, hrest⟩ := List.pairwise_cons.1 hsorted
    rw [lookup_entry, List.mem_cons]
    by_cases hkey : name = key
    · subst hkey
      -- The names behind the first one are larger.
      have hnot : (name, a) ∉ rest := fun hmem => String.lt_irrefl name (hhead _ hmem)
      simp [hnot, eq_comm]
    · simp [hkey, ih hrest]

theorem names_ascend (m : NameMap α) : m.names.Pairwise (· < ·) := List.pairwise_map.2 m.sorted

theorem mem_names : name ∈ m.names ↔ m.contains name = true := by
  rw [contains, Option.isSome_iff_exists, names, List.mem_map]
  constructor
  · rintro ⟨⟨_, a⟩, hmem, rfl⟩
    exact ⟨a, get?_eq_some_iff.2 hmem⟩
  · rintro ⟨a, ha⟩
    exact ⟨(name, a), get?_eq_some_iff.1 ha, rfl⟩

theorem nodup_names (m : NameMap α) : m.names.Nodup :=
  m.names_ascend.imp fun {a b} (hlt : a < b) (heq : a = b) => String.lt_irrefl b (heq ▸ hlt)

theorem nodup_entries (m : NameMap α) : m.entries.Nodup := m.nodup_names.of_map

/-- Maps with the same look-ups are the same. -/
theorem ext_get? {m m' : NameMap α} (h : ∀ name, m.get? name = m'.get? name) : m = m' := by
  have hperm : m.entries.Perm m'.entries := by
    refine (List.perm_ext_iff_of_nodup m.nodup_entries m'.nodup_entries).2 fun entry => ?_
    rw [← get?_eq_some_iff, ← get?_eq_some_iff, h]
  have hantisymm : ∀ a b : String × α, a ∈ m.entries → b ∈ m'.entries → a.1 < b.1 → b.1 < a.1 →
      a = b := fun a b _ _ hab hba => absurd (String.lt_trans hab hba) (String.lt_irrefl _)
  have hentries := hperm.eq_of_pairwise hantisymm m.sorted m'.sorted
  cases m
  cases m'
  obtain rfl := hentries
  rfl

/-- Entries with different names are all found after they have been added. -/
theorem get?_foldl_insert {entries : List (String × α)} (h : (entries.map Prod.fst).Nodup) :
    (entries.foldl (fun m entry => m.insert entry.1 entry.2) m).get? name = some a ↔
      (name, a) ∈ entries ∨ name ∉ entries.map Prod.fst ∧ m.get? name = some a := by
  induction entries generalizing m with
  | nil => simp
  | cons entry rest ih =>
    obtain ⟨key, b⟩ := entry
    obtain ⟨hkey, hrest⟩ := List.nodup_cons.1 h
    rw [List.foldl_cons, ih hrest, get?_insert, List.map_cons, List.mem_cons, List.mem_cons]
    by_cases hname : name = key
    · subst hname
      have hnot : (name, a) ∉ rest := fun hmem => hkey (List.mem_map.2 ⟨_, hmem, rfl⟩)
      simp [hnot, hkey, eq_comm]
    · simp [hname]

/-- A map is built from its entries, in whatever order they are added. -/
theorem foldl_insert_entries {entries : List (String × α)} (h : entries.Perm m.entries) :
    entries.foldl (fun m entry => m.insert entry.1 entry.2) empty = m := by
  have hnames : (entries.map Prod.fst).Nodup := (h.map Prod.fst).nodup_iff.2 m.nodup_names
  refine ext_get? fun name => Option.ext fun a => ?_
  rw [get?_foldl_insert hnames, h.mem_iff, ← get?_eq_some_iff, get?_empty]
  simp

end NameMap

theorem NameSet.contains_ofList {names : List String} {name : String} :
    NameMap.contains (NameSet.ofList names) name = true ↔ name ∈ names := by
  suffices general : ∀ s : NameSet,
      NameMap.contains (names.foldl NameSet.add s) name = true ↔
        NameMap.contains s name = true ∨ name ∈ names by
    have hempty : ¬NameMap.contains (NameMap.empty : NameSet) name = true := by
      simp [NameMap.contains]
    rw [NameSet.ofList, general, or_iff_right hempty]
  induction names with
  | nil => simp
  | cons first rest ih =>
    intro s
    have hadd : NameMap.contains (s.add first) name = true ↔
        name = first ∨ NameMap.contains s name = true := by
      rw [NameMap.contains, NameSet.add, NameMap.get?_insert]
      by_cases hname : name = first
      · simp [hname]
      · simp [hname, NameMap.contains]
    rw [List.foldl_cons, ih, hadd, List.mem_cons]
    tauto

end ProofScript
