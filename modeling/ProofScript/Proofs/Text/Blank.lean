import Mathlib.Data.List.TakeWhile
import ProofScript.Text.Blank
import ProofScript.Text.Name

/-!
# Texts and their blanks

Trimming takes the blanks at both ends of a text away, and nothing else (`trims_trim`). A text
without blanks is not changed by it; names and numbers are such texts.
-/

namespace ProofScript.Text

variable {c : Char} {cs : List Char} {s : String}

/-! ## Trimming -/

theorem dropWhile_isBlank (h : ∀ c ∈ cs, isBlank c = false) : cs.dropWhile isBlank = cs := by
  cases cs with
  | nil => rfl
  | cons c cs => exact List.dropWhile_cons_of_neg (by simp [h c List.mem_cons_self])

theorem trimEnd_eq_self (h : ∀ c ∈ cs, isBlank c = false) : trimEnd cs = cs := by
  rw [trimEnd, dropWhile_isBlank fun c hc => h c (List.mem_reverse.1 hc), List.reverse_reverse]

theorem trim_eq_self (h : ∀ c ∈ s.toList, isBlank c = false) : trim s = s := by
  rw [trim, trimStart, dropWhile_isBlank h, trimEnd_eq_self h, String.ofList_toList]

/-- The inner text is what is left of the whole one when the blanks at both ends are taken away. -/
structure Trims (whole inner : List Char) : Prop where
  around : ∃ front back,
    whole = front ++ inner ++ back ∧ (∀ c ∈ front, isBlank c = true) ∧ ∀ c ∈ back, isBlank c = true
  first : ∀ c ∈ inner.head?, isBlank c = false
  last : ∀ c ∈ inner.getLast?, isBlank c = false

theorem isBlank_of_head?_dropWhile (h : c ∈ (cs.dropWhile isBlank).head?) : isBlank c = false := by
  have hhead := List.head?_dropWhile_not isBlank cs
  rwa [h] at hhead

theorem trims_trim (s : String) : Trims s.toList (trim s).toList := by
  rw [trim, String.toList_ofList]
  have hstart : s.toList.takeWhile isBlank ++ trimStart s.toList = s.toList :=
    List.takeWhile_append_dropWhile
  have hend : trimEnd (trimStart s.toList) ++
      ((trimStart s.toList).reverse.takeWhile isBlank).reverse = trimStart s.toList := by
    rw [trimEnd, ← List.reverse_append, List.takeWhile_append_dropWhile, List.reverse_reverse]
  refine ⟨⟨_, _, by rw [List.append_assoc, hend, hstart], ?_, ?_⟩, fun c hc => ?_, fun c hc => ?_⟩
  · exact fun c hc => List.mem_takeWhile_imp hc
  · exact fun c hc => List.mem_takeWhile_imp (List.mem_reverse.1 hc)
  · -- What is left behind the blanks at the start keeps its first character, if it keeps any.
    have hhead : c ∈ (trimStart s.toList).head? := by
      rw [← hend, List.head?_append, Option.mem_def.1 hc]
      rfl
    exact isBlank_of_head?_dropWhile hhead
  · rw [trimEnd, List.getLast?_reverse] at hc
    exact isBlank_of_head?_dropWhile hc

/-- A text without blanks that stands in another one behind blanks stands there without them. -/
theorem infix_of_infix_append {marker front rest : List Char}
    (hfront : ∀ c ∈ front, isBlank c = true) (hmarker : ∀ c ∈ marker, isBlank c = false)
    (h : marker <:+: front ++ rest) : marker <:+: rest := by
  induction front with
  | nil => exact h
  | cons b front ih =>
    rcases List.infix_cons_iff.1 h with hprefix | h
    · cases marker with
      | nil => exact List.nil_infix
      | cons c marker =>
        have hblank := hfront b List.mem_cons_self
        rw [← (List.cons_prefix_cons.1 hprefix).1, hmarker c List.mem_cons_self] at hblank
        cases hblank
    · exact ih (fun c hc => hfront c (List.mem_cons_of_mem b hc)) h

/-- A text without blanks stands in another one just when it stands there between the blanks at both
ends. -/
theorem Trims.infix_iff {marker whole inner : List Char} (h : Trims whole inner)
    (hmarker : ∀ c ∈ marker, isBlank c = false) : marker <:+: inner ↔ marker <:+: whole := by
  obtain ⟨front, back, rfl, hfront, hback⟩ := h.around
  refine ⟨fun hinner => hinner.trans (List.infix_append front inner back), fun hwhole => ?_⟩
  rw [List.append_assoc] at hwhole
  have hrest := List.reverse_infix.2 (infix_of_infix_append hfront hmarker hwhole)
  rw [List.reverse_append] at hrest
  refine List.reverse_infix.1 (infix_of_infix_append (fun c hc => ?_) (fun c hc => ?_) hrest)
  · exact hback c (List.mem_reverse.1 hc)
  · exact hmarker c (List.mem_reverse.1 hc)

/-! ## Names -/

/-- The characters of names lie between the digits and the small letters. -/
theorem isBlank_of_isNameChar (h : isNameChar c = true) : isBlank c = false := by
  have ha : 'a'.val.toNat = 97 := rfl
  have hz : 'z'.val.toNat = 122 := rfl
  have hA : 'A'.val.toNat = 65 := rfl
  have hZ : 'Z'.val.toNat = 90 := rfl
  have h0 : '0'.val.toNat = 48 := rfl
  have h9 : '9'.val.toNat = 57 := rfl
  have hline : ∀ c : Char, c = '_' → c.val.toNat = 95 := fun c hc => hc ▸ rfl
  simp only [isNameChar, isNameStart, isDigit, Bool.or_eq_true, Bool.and_eq_true,
    decide_eq_true_eq, Char.le_def, UInt32.le_iff_toNat_le, beq_iff_eq] at h
  have hrange : 48 ≤ c.val.toNat ∧ c.val.toNat ≤ 122 := by
    rcases h with ((h | h) | h) | h
    · omega
    · omega
    · have := hline c h
      omega
    · omega
  simp only [isBlank, blankRanges, List.any_eq_false, Char.toNat, Bool.and_eq_true,
    decide_eq_true_eq, not_and]
  intro range hmem hlow
  simp only [List.mem_cons, List.not_mem_nil, or_false] at hmem
  rcases hmem with rfl | rfl | rfl | rfl | rfl | rfl | rfl | rfl | rfl | rfl
  all_goals
    dsimp only at hlow ⊢
    omega

theorem isNameChar_of_mem (h : isName cs = true) (hc : c ∈ cs) : isNameChar c = true := by
  cases cs with
  | nil => cases hc
  | cons first cs =>
    obtain ⟨hfirst, hcs⟩ := Bool.and_eq_true_iff.1 h
    rcases List.mem_cons.1 hc with rfl | hc
    · rw [isNameChar, hfirst, Bool.true_or]
    · exact List.all_eq_true.1 hcs c hc

/-- A name has a last character. -/
theorem exists_last_of_isName (h : isName cs = true) :
    ∃ front c, cs = front ++ [c] ∧ isNameChar c = true := by
  rcases List.eq_nil_or_concat cs with rfl | ⟨front, c, rfl⟩
  · cases h
  · rw [List.concat_eq_append] at h ⊢
    exact ⟨front, c, rfl, isNameChar_of_mem h (List.mem_append_right _ (List.mem_singleton_self c))⟩

theorem trimEnd_of_isName (h : isName cs = true) : trimEnd cs = cs :=
  trimEnd_eq_self fun _ hc => isBlank_of_isNameChar (isNameChar_of_mem h hc)

end ProofScript.Text
