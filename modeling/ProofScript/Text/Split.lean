/-!
# Splitting at a marker

The first occurrence of a text in another one, and the pieces between all elements of a kind.
-/

namespace ProofScript.Text

/-- The characters before and behind the first occurrence of `marker`. -/
def cut? (marker : List Char) : List Char → Option (List Char × List Char)
  | [] => if marker.isEmpty then some ([], []) else none
  | c :: cs =>
    if marker.isPrefixOf (c :: cs) then some ([], (c :: cs).drop marker.length)
    else (cut? marker cs).map fun (before, behind) => (c :: before, behind)

/-- The pieces of a list between the elements for which `p` holds. -/
def pieces {α : Type} (p : α → Bool) : List α → List (List α)
  | [] => [[]]
  | x :: xs =>
    if p x then [] :: pieces p xs
    else
      match pieces p xs with
      | [] => [[x]]
      | piece :: rest => (x :: piece) :: rest

/-- A cut is a cut: what is before the marker, the marker and what is behind it are the whole
text. -/
theorem append_of_cut? {marker cs before behind : List Char}
    (h : cut? marker cs = some (before, behind)) : before ++ marker ++ behind = cs := by
  induction cs generalizing before behind with
  | nil =>
    unfold cut? at h
    split at h
    · rename_i hm
      simp_all
    · simp at h
  | cons c cs ih =>
    unfold cut? at h
    split at h
    · rename_i hp
      obtain ⟨rfl, rfl⟩ : [] = before ∧ (c :: cs).drop marker.length = behind := by simpa using h
      obtain ⟨rest, hrest⟩ := List.isPrefixOf_iff_prefix.1 hp
      rw [List.nil_append, ← hrest, List.drop_left]
    · obtain ⟨⟨b, d⟩, hcut, heq⟩ := Option.map_eq_some_iff.1 h
      obtain ⟨rfl, rfl⟩ : c :: b = before ∧ d = behind := by simpa using heq
      simp [← ih hcut]

end ProofScript.Text
