import ProofScript.Path

/-!
# Absolute paths

A joined path is absolute when one of its two parts is (`isAbsolute_join`), and the directories that
a path lies in are absolute when the path is (`isAbsolute_of_mem_parents`).
-/

namespace ProofScript.Path

variable {p dir s t : String}

/-! ## Joining -/

theorem isAbsolute_append (h : s ≠ "") : isAbsolute (s ++ t) = isAbsolute s := by
  cases hs : s.toList with
  | nil => exact absurd (String.toList_eq_nil_iff.1 hs) h
  | cons c cs => simp [isAbsolute, hs]

theorem join_of_isAbsolute (h : isAbsolute p = true) (dir : String) : join dir p = p := by
  simp [join, h]

theorem isAbsolute_join (dir p : String) :
    isAbsolute (join dir p) = (isAbsolute p || isAbsolute dir) := by
  unfold join
  split
  · rename_i h
    rcases Bool.or_eq_true_iff.1 h with h | h
    · rw [h, Bool.true_or]
    · obtain rfl : dir = "" := by simpa using h
      exact (Bool.or_false _).symm
  · rename_i h
    obtain ⟨hp, hdir⟩ : isAbsolute p = false ∧ dir ≠ "" := by simpa using h
    rw [hp, Bool.false_or]
    split
    · exact isAbsolute_append hdir
    · rw [String.append_assoc, isAbsolute_append hdir]

/-- What stands before a relative path that is joined depends on the directory only. -/
theorem exists_join_eq (dir : String) :
    ∃ front, ∀ p, isAbsolute p = false → join dir p = front ++ p := by
  by_cases hdir : dir = ""
  · exact ⟨"", fun p _ => by simp [join, hdir]⟩
  · by_cases hlast : dir.toList.getLast? = some '/'
    · exact ⟨dir, fun p hp => by simp [join, hp, hdir, hlast]⟩
    · exact ⟨dir ++ "/", fun p hp => by simp [join, hp, hdir, hlast]⟩

/-- Joining with a relative path and then with another one is joining with both. -/
theorem join_join {q : String} (dir : String) (hp : isAbsolute p = false)
    (hlast : ∃ c, p.toList.getLast? = some c ∧ c ≠ '/') (hq : isAbsolute q = false) :
    join (join dir p) q = join dir (p ++ "/" ++ q) := by
  obtain ⟨c, hc, hslash⟩ := hlast
  obtain ⟨front, hfront⟩ := exists_join_eq dir
  have hne : p ≠ "" := by
    rintro rfl
    cases hc
  have hboth : isAbsolute (p ++ "/" ++ q) = false := by
    rw [String.append_assoc, isAbsolute_append hne, hp]
  rw [hfront p hp, hfront _ hboth]
  simp [join, hq, hne, hc, hslash, String.append_assoc]

/-! ## Parts -/

theorem splitSlash_ne_nil (cs : List Char) : splitSlash cs ≠ [] := by
  cases cs with
  | nil => exact List.cons_ne_nil _ _
  | cons c cs =>
    unfold splitSlash
    split
    · exact List.cons_ne_nil _ _
    · split <;> exact List.cons_ne_nil _ _

/-- The first part of a text that does not start with a slash starts as the text does. -/
theorem splitSlash_cons {c : Char} (hc : c ≠ '/') (cs : List Char) :
    ∃ part parts, splitSlash (c :: cs) = (c :: part) :: parts := by
  rw [splitSlash, if_neg (by simpa using hc)]
  cases hcs : splitSlash cs with
  | nil => exact absurd hcs (splitSlash_ne_nil cs)
  | cons part parts => exact ⟨part, parts, rfl⟩

/-- A relative path that is not empty has a first part, which is not empty and relative too. -/
theorem parts_of_relative (hrelative : isAbsolute p = false) (hp : p ≠ "") :
    ∃ first rest, parts p = first :: rest ∧ first ≠ "" ∧ isAbsolute first = false := by
  cases hcs : p.toList with
  | nil => exact absurd (String.toList_eq_nil_iff.1 hcs) hp
  | cons c cs =>
    have hc : c ≠ '/' := by simpa [isAbsolute, hcs] using hrelative
    obtain ⟨part, rest, hsplit⟩ := splitSlash_cons hc cs
    refine ⟨String.ofList (c :: part), rest.map String.ofList, ?_, by simp, ?_⟩
    · simp only [parts, hrelative, hcs, Bool.false_eq_true, if_false, hsplit, List.map_cons]
    · simp [isAbsolute, hc]

/-! ## Directories -/

theorem dropFiller_suffix (absolute : Bool) (back : List String) :
    dropFiller absolute back <:+ back := by
  induction back with
  | nil => exact List.suffix_rfl
  | cons part back ih =>
    unfold dropFiller
    split
    · exact ih.trans (List.suffix_cons part back)
    · exact List.suffix_rfl

/-- A directory that a path lies in is made of the first parts of the path. -/
theorem exists_suffix_of_mem {absolute : Bool} {back : List String}
    (h : dir ∈ parentsOfBack absolute back) :
    ∃ front, front <:+ back ∧ dir = ofBack absolute front := by
  induction back with
  | nil => cases h
  | cons part back ih =>
    have hlonger {front : List String} (h : front <:+ back) : front <:+ part :: back :=
      h.trans (List.suffix_cons part back)
    unfold parentsOfBack at h
    split at h
    · obtain ⟨front, hfront, hdir⟩ := ih h
      exact ⟨front, hlonger hfront, hdir⟩
    · rcases List.mem_cons.1 h with rfl | h
      · exact ⟨_, hlonger (dropFiller_suffix absolute back), rfl⟩
      · obtain ⟨front, hfront, hdir⟩ := ih h
        exact ⟨front, hlonger hfront, hdir⟩

theorem isAbsolute_intercalate {first : String} (h : first ≠ "") (rest : List String) :
    isAbsolute ("/".intercalate (first :: rest)) = isAbsolute first := by
  cases rest with
  | nil => rw [String.intercalate_singleton]
  | cons next rest => rw [String.intercalate_cons_cons, String.append_assoc, isAbsolute_append h]

/-- The directories that a path lies in are absolute just when the path is. -/
theorem isAbsolute_of_mem_parents (h : dir ∈ parents p) : isAbsolute dir = isAbsolute p := by
  obtain ⟨front, hfront, rfl⟩ := exists_suffix_of_mem h
  cases hp : isAbsolute p with
  | true => simp [ofBack, isAbsolute]
  | false =>
    have hne : p ≠ "" := by
      rintro rfl
      cases h
    -- The directory starts with the first part of the path, unless it is empty.
    obtain ⟨first, rest, hparts, hfirst, hrelative⟩ := parts_of_relative hp hne
    have hprefix : front.reverse <+: first :: rest := by
      rw [← hparts, ← List.reverse_suffix, List.reverse_reverse]
      exact hfront
    rw [ofBack, if_neg Bool.false_ne_true, String.empty_append]
    cases hfront : front.reverse with
    | nil => rfl
    | cons x xs =>
      rw [hfront] at hprefix
      rw [(List.cons_prefix_cons.1 hprefix).1, isAbsolute_intercalate hfirst, hrelative]

/-- Where a path lies in no directory, all its parts stand for nothing. -/
theorem isFiller_of_parentsOfBack {absolute : Bool} {back front : List String} {part : String}
    (h : parentsOfBack absolute back = []) (hfront : part :: front <:+ back) :
    isFiller absolute part front = true := by
  induction back with
  | nil => simp at hfront
  | cons last back ih =>
    unfold parentsOfBack at h
    split at h
    · rename_i hlast
      rcases List.suffix_cons_iff.1 hfront with heq | hsuffix
      · obtain ⟨rfl, rfl⟩ := List.cons.inj heq
        exact hlast
      · exact ih h hsuffix
    · cases h

/-- Only the empty path and the ways of writing the root lie in no directory. -/
theorem parents_eq_nil (h : parents p = []) :
    p = "" ∨ isAbsolute p = true ∧ ∀ part ∈ parts p, (part.isEmpty || part == ".") = true := by
  cases hp : isAbsolute p with
  | true =>
    refine .inr ⟨rfl, fun part hpart => ?_⟩
    obtain ⟨behind, front, hsplit⟩ := List.append_of_mem (List.mem_reverse.2 hpart)
    have hfiller := isFiller_of_parentsOfBack h ⟨behind, hsplit.symm⟩
    simpa [isFiller, hp] using hfiller
  | false =>
    refine .inl (Decidable.byContradiction fun hne => ?_)
    obtain ⟨first, rest, hparts, hfirst, -⟩ := parts_of_relative hp hne
    have hsuffix : [first] <:+ (parts p).reverse := by
      rw [hparts, List.reverse_cons]
      exact List.suffix_append rest.reverse [first]
    have hfiller := isFiller_of_parentsOfBack h hsuffix
    simp [isFiller, hp, hfirst] at hfiller

end ProofScript.Path
