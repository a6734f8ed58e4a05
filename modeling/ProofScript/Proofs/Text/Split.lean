import Mathlib.Data.List.Infix
import ProofScript.Text.Split

/-!
# The first occurrence of a marker

A text that holds a marker is cut at the first place where the marker stands (`FirstCut`). There is
one such cut, `cut?` finds it, and it finds nothing only in a text without the marker.
-/

namespace ProofScript.Text

variable {marker text before behind : List Char}

/-- The marker stands in a text between two parts of it, and it does not stand further ahead. -/
structure FirstCut (marker text before behind : List Char) : Prop where
  split : before ++ marker ++ behind = text
  first : ∀ b d, b ++ marker ++ d = text → before.length ≤ b.length

namespace FirstCut

theorem unique {before' behind' : List Char} (h : FirstCut marker text before behind)
    (h' : FirstCut marker text before' behind') : before = before' ∧ behind = behind' := by
  have hlength : before.length = before'.length :=
    Nat.le_antisymm (h.first _ _ h'.split) (h'.first _ _ h.split)
  have hsplit : before ++ (marker ++ behind) = before' ++ (marker ++ behind') := by
    rw [← List.append_assoc, ← List.append_assoc, h.split, h'.split]
  obtain ⟨hbefore, hrest⟩ := List.append_inj hsplit hlength
  exact ⟨hbefore, List.append_cancel_left hrest⟩

/-- What stands before the first occurrence of a marker does not hold the marker. -/
theorem not_infix_before (h : FirstCut marker text before behind) (hmarker : marker ≠ []) :
    ¬marker <:+: before := by
  rintro ⟨b, d, hbefore⟩
  have hsplit : b ++ marker ++ (d ++ marker ++ behind) = text := by
    rw [← h.split, ← hbefore]
    simp only [List.append_assoc]
  have hlength := h.first _ _ hsplit
  have hpos := List.length_pos_iff.2 hmarker
  rw [← hbefore, List.length_append, List.length_append] at hlength
  omega

end FirstCut

/-- A cut is at the first place where the marker stands. -/
theorem firstCut_of_cut? (h : cut? marker text = some (before, behind)) :
    FirstCut marker text before behind := by
  refine ⟨append_of_cut? h, fun b d hsplit => ?_⟩
  induction text generalizing before behind b with
  | nil =>
    unfold cut? at h
    split at h
    · obtain ⟨rfl, rfl⟩ : [] = before ∧ [] = behind := by simpa using h
      exact Nat.zero_le _
    · cases h
  | cons c cs ih =>
    unfold cut? at h
    split at h
    · obtain ⟨rfl, -⟩ : [] = before ∧ _ := by simpa using h
      exact Nat.zero_le _
    · rename_i hstart
      obtain ⟨⟨first, rest⟩, hcut, heq⟩ := Option.map_eq_some_iff.1 h
      obtain ⟨rfl, rfl⟩ : c :: first = before ∧ rest = behind := by simpa using heq
      cases b with
      | nil => exact absurd (List.isPrefixOf_iff_prefix.2 ⟨d, hsplit⟩) hstart
      | cons e b =>
        have hrest : b ++ marker ++ d = cs := (List.cons.inj hsplit).2
        exact Nat.succ_le_succ (ih hcut b hrest)

theorem cut?_eq_none_iff : cut? marker text = none ↔ ¬marker <:+: text := by
  induction text with
  | nil => cases marker <;> simp [cut?]
  | cons c cs ih =>
    rw [cut?, List.infix_cons_iff, not_or, ← ih, ← List.isPrefixOf_iff_prefix]
    by_cases hstart : marker.isPrefixOf (c :: cs) = true
    · simp [hstart]
    · rw [if_neg hstart, Option.map_eq_none_iff, and_iff_right hstart]

theorem cut?_eq_some_iff :
    cut? marker text = some (before, behind) ↔ FirstCut marker text before behind := by
  refine ⟨firstCut_of_cut?, fun h => ?_⟩
  cases hcut : cut? marker text with
  | none => exact absurd ⟨before, behind, h.split⟩ (cut?_eq_none_iff.1 hcut)
  | some parts =>
    obtain ⟨rfl, rfl⟩ := h.unique (firstCut_of_cut? hcut)
    rfl

theorem exists_firstCut (h : marker <:+: text) :
    ∃ before behind, FirstCut marker text before behind := by
  cases hcut : cut? marker text with
  | none => exact absurd h (cut?_eq_none_iff.1 hcut)
  | some parts => exact ⟨parts.1, parts.2, firstCut_of_cut? hcut⟩

end ProofScript.Text
