import Mathlib.Data.List.Nodup
import ProofScript.Proofs.Code.Naming

/-!
# Names that are in use

A name that has been drawn is never drawn again, nor is a name made of it with an underscore and
further text behind it (`FreshNames.Spent`). A list of names is reserved when its names are spent
and all different; drawing a name adds it to the list.
-/

namespace ProofScript

/-- A stem has no digits, so the number behind it can be told. -/
def IsStem (stem : String) : Prop := ∀ c ∈ stem.toList, c.isDigit = false

instance (stem : String) : Decidable (IsStem stem) :=
  decidable_of_iff (stem.toList.all (fun c => !c.isDigit) = true) (by simp [IsStem])

/-- A name that is made of `name`, for something called `part`. -/
def derived (name part : String) : String := name ++ "_" ++ part

namespace FreshNames

/-- The name, or the one it is derived from, has been drawn. -/
def Spent (names : FreshNames) (x : String) : Prop :=
  ∃ stem n rest, IsStem stem ∧ (∀ c ∈ rest.head?, c.isDigit = false) ∧ n < names.count stem ∧
    x.toList = (Claim.numbered stem n).toList ++ rest

/-- The names are spent, and all different. -/
structure Reserves (names : FreshNames) (xs : List String) : Prop where
  /-- No name occurs twice. -/
  nodup : xs.Nodup
  /-- The names are not drawn again. -/
  spent : ∀ x ∈ xs, names.Spent x

variable {names : FreshNames} {stem x : String} {xs ys : List String}

theorem Spent.fresh (h : names.Spent x) (stem : String) : (names.fresh stem).2.Spent x := by
  obtain ⟨other, n, rest, hother, hrest, hn, hx⟩ := h
  refine ⟨other, n, rest, hother, hrest, ?_, hx⟩
  rw [count_fresh]
  split
  · next heq => rw [heq] at hn; omega
  · exact hn

/-- What starts with the name that is drawn next, and no digit behind it, is not spent. -/
theorem not_spent_of_next {rest : List Char} (hstem : IsStem stem)
    (hrest : ∀ c ∈ rest.head?, c.isDigit = false)
    (hx : x.toList = (Claim.numbered stem (names.count stem)).toList ++ rest) :
    ¬names.Spent x := by
  rintro ⟨other, n, behind, hother, hbehind, hn, hsame⟩
  obtain ⟨rfl, rfl, -⟩ := Claim.numbered_append_inj hstem hother hrest hbehind (hx.symm.trans hsame)
  exact Nat.lt_irrefl _ hn

theorem spent_of_next {rest : List Char} (hstem : IsStem stem)
    (hrest : ∀ c ∈ rest.head?, c.isDigit = false)
    (hx : x.toList = (Claim.numbered stem (names.count stem)).toList ++ rest) :
    (names.fresh stem).2.Spent x := by
  refine ⟨stem, _, rest, hstem, hrest, ?_, hx⟩
  rw [count_fresh, if_pos rfl]
  exact Nat.lt_succ_self _

namespace Reserves

theorem nil : names.Reserves [] := ⟨List.nodup_nil, List.forall_mem_nil _⟩

theorem sublist (h : names.Reserves xs) (hsub : ys.Sublist xs) : names.Reserves ys :=
  ⟨h.nodup.sublist hsub, fun y hy => h.spent y (hsub.subset hy)⟩

theorem perm (h : names.Reserves xs) (hperm : ys.Perm xs) : names.Reserves ys :=
  ⟨hperm.nodup_iff.2 h.nodup, fun y hy => h.spent y (hperm.subset hy)⟩

/-- A name that is drawn joins the reserved ones, and so do names that are derived from it. -/
theorem fresh (h : names.Reserves xs) (hstem : IsStem stem) {parts : List String}
    (hparts : parts.Nodup) :
    (names.fresh stem).2.Reserves
      (parts.map (derived (names.fresh stem).1) ++ (names.fresh stem).1 :: xs) := by
  have hname : (names.fresh stem).1.toList =
      (Claim.numbered stem (names.count stem)).toList ++ [] := (List.append_nil _).symm
  have hderived : ∀ part, (derived (names.fresh stem).1 part).toList =
      (Claim.numbered stem (names.count stem)).toList ++ '_' :: part.toList := by
    intro part
    rw [derived, String.toList_append, String.toList_append, List.append_assoc, hname,
      List.append_nil]
    rfl
  have hunderscore : ∀ part : String, ∀ c ∈ ('_' :: part.toList).head?, c.isDigit = false := by
    rintro part c hc
    obtain rfl : '_' = c := Option.some.inj hc
    rfl
  have hinjective : Function.Injective (derived (names.fresh stem).1) := by
    intro a b hab
    have hlists := congrArg String.toList hab
    rw [hderived, hderived, List.append_cancel_left_eq] at hlists
    exact String.toList_injective (List.cons.inj hlists).2
  constructor
  · refine List.nodup_append.2 ⟨List.Nodup.map hinjective hparts, ?_, ?_⟩
    · refine List.nodup_cons.2 ⟨fun hmem => ?_, h.nodup⟩
      exact not_spent_of_next hstem (by simp) hname (h.spent _ hmem)
    · -- A derived name goes on where the drawn one ends, and what is older is spent already.
      rintro _ hmem x hx rfl
      obtain ⟨part, -, rfl⟩ := List.mem_map.1 hmem
      rcases List.mem_cons.1 hx with hx | hx
      · have hlists := congrArg String.toList hx
        rw [hderived, hname, List.append_cancel_left_eq] at hlists
        cases hlists
      · exact not_spent_of_next hstem (hunderscore part) (hderived part) (h.spent _ hx)
  · intro x hx
    rcases List.mem_append.1 hx with hx | hx
    · obtain ⟨part, -, rfl⟩ := List.mem_map.1 hx
      exact spent_of_next hstem (hunderscore part) (hderived part)
    · rcases List.mem_cons.1 hx with rfl | hx
      · exact spent_of_next hstem (by simp) hname
      · exact (h.spent x hx).fresh stem

end Reserves

end FreshNames

end ProofScript
