import ProofScript.Proofs.Grammar.Completeness
import ProofScript.Proofs.Printing.Places

/-!
# Printed types

A type that is printed is read back.
-/

namespace ProofScript

open Token (Kind)

namespace VarType

mutual

/-- A printed type is read by any reader that is given enough tokens. -/
theorem typeBelow_ok : (t : VarType) → t.isValid = true → ∀ {bound : Nat} {c : Cursor}
    (h : c.size < bound) {ks : List Kind}, c.kinds = t.tokens ++ ks →
    ∃ p, Grammar.typeBelow bound c h = .ok p ∧ p.value = t ∧ p.rest.kinds = ks
  | .value, _, 0, c, h, _, _ => absurd h (Nat.not_lt_zero _)
  | .tuple _, _, 0, c, h, _, _ => absurd h (Nat.not_lt_zero _)
  | .tuple [], hvalid, _ + 1, _, _, _, _ => by cases hvalid
  | .value, _, n + 1, c, h, ks, hc => by
    have hstar : c.kind? = some (.symbol .star) := Cursor.kind?_of_kinds hc
    have hrest : c.advance.kinds = ks := Cursor.kinds_advance hc
    refine ⟨⟨.value, c.advance, Cursor.size_advance_lt hstar⟩, ?_, rfl, hrest⟩
    rw [Grammar.typeBelow, Grammar.typeStep, dif_pos hstar]
  | .tuple (t :: ts), hvalid, n + 1, c, h, ks, hc => by
    simp only [isValid, List.isEmpty_cons, Bool.not_false, Bool.true_and, allValid,
      Bool.and_eq_true] at hvalid
    rw [tokens, parts, commas_cons] at hc
    simp only [List.cons_append, List.append_assoc] at hc
    have hless : c.kind? = some (.symbol .less) := Cursor.kind?_of_kinds hc
    have hlt := Cursor.size_advance_lt hless
    -- The first component, those that follow it, and the closing bracket.
    obtain ⟨first, hfirst, hvalue, hrest⟩ :=
      typeBelow_ok t hvalid.1 (by omega : c.advance.size < n) (Cursor.kinds_advance hc)
    have hshorter := first.shorter
    obtain ⟨items, hitems, hvalues, hrest⟩ :=
      typesAfter_ok ts hvalid.2 [first.value] (by omega : first.rest.size < c.size)
        (Nat.le_of_lt_succ h) hrest
    have hclose := Cursor.symbol_of_kind (Cursor.kind?_of_kinds hrest)
    have hstar : c.kind? ≠ some (.symbol .star) := by simp [hless]
    refine ⟨⟨.tuple items.value, items.rest.advance, ?_⟩, ?_, ?_, ?_⟩
    · exact Nat.lt_of_le_of_lt (Cursor.size_advance_le _) items.shorter
    · rw [Grammar.typeBelow, Grammar.typeStep, dif_neg hstar, dif_pos hless]
      exact bind_of_ok hfirst (bind_of_ok hitems (bind_of_ok hclose rfl))
    · rw [hvalues, hvalue, List.singleton_append]
    · exact Cursor.kinds_advance hrest

/-- Printed types with commas in front of them are read after the ones before. -/
theorem typesAfter_ok : (ts : List VarType) → allValid ts = true → ∀ {n bound : Nat}
    (before : List VarType) {c : Cursor} (h : c.size < bound) (hb : bound ≤ n) {ks : List Kind},
    c.kinds = (parts ts).flatMap (fun part => Kind.symbol .comma :: part)
      ++ .symbol .greater :: ks →
    ∃ p, Grammar.typesAfter (Grammar.typeBelow n) before c h hb = .ok p ∧
      p.value = before ++ ts ∧ p.rest.kinds = .symbol .greater :: ks
  | [], _, n, bound, before, c, h, hb, ks, hc => by
    have hgreater : c.kind? = some (.symbol .greater) := Cursor.kind?_of_kinds hc
    refine ⟨⟨before, c, h⟩, ?_, (List.append_nil before).symm, hc⟩
    rw [Grammar.typesAfter, dif_neg (by simp [hgreater])]
  | t :: ts, hvalid, n, bound, before, c, h, hb, ks, hc => by
    rw [allValid, Bool.and_eq_true] at hvalid
    rw [parts, List.flatMap_cons] at hc
    simp only [List.cons_append, List.append_assoc] at hc
    have hcomma : c.kind? = some (.symbol .comma) := Cursor.kind?_of_kinds hc
    have hlt := Cursor.size_advance_lt hcomma
    obtain ⟨item, hitem, hvalue, hrest⟩ :=
      typeBelow_ok t hvalid.1 (by omega : c.advance.size < n) (Cursor.kinds_advance hc)
    have hshorter := item.shorter
    obtain ⟨items, hitems, hvalues, hrest⟩ :=
      typesAfter_ok ts hvalid.2 (before ++ [item.value])
        (by omega : item.rest.size < bound) hb hrest
    refine ⟨items, ?_, ?_, hrest⟩
    · rw [Grammar.typesAfter, dif_pos hcomma]
      simp only [hitem, hitems]
    · rw [hvalues, hvalue, List.append_assoc, List.singleton_append]

end

/-- A printed type is read. -/
theorem type_ok {t : VarType} (ht : t.isValid = true) {c : Cursor} {ks : List Kind}
    (hc : c.kinds = t.tokens ++ ks) :
    ∃ p, Grammar.type c = .ok p ∧ p.value = t ∧ p.rest.kinds = ks :=
  typeBelow_ok t ht c.size_lt_succ hc

end VarType

end ProofScript
