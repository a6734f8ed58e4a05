import ProofScript.Grammar.Cursor

/-!
# The grammar of types

A type is a star, or a list of types between angle brackets that are separated by commas.
-/

namespace ProofScript.Grammar

/-- A reader of types for cursors with fewer than `n` tokens. -/
abbrev TypeReader (n : Nat) :=
  (c : Cursor) → c.size < n → Except ParseError (Parsed c.size VarType)

/-- Reads the types that follow the types `items`, each after a comma. -/
def typesAfter {n bound : Nat} (type : TypeReader n) (items : List VarType) (c : Cursor)
    (h : c.size < bound) (hb : bound ≤ n) : Except ParseError (Parsed bound (List VarType)) :=
  if hc : c.kind? = some (.symbol .comma) then
    have := Cursor.size_advance_lt hc
    match type c.advance (by omega) with
    | .error e => .error e
    | .ok item =>
      have := item.shorter
      typesAfter type (items ++ [item.value]) item.rest (by omega) hb
  else .ok ⟨items, c, h⟩
termination_by c.size

/-- Reads a type, given a reader for shorter cursors. -/
def typeStep {n : Nat} (type : TypeReader n) : TypeReader (n + 1) := fun c h =>
  if hs : c.kind? = some (.symbol .star) then
    .ok ⟨.value, c.advance, Cursor.size_advance_lt hs⟩
  else if ho : c.kind? = some (.symbol .less) then do
    have ha := Cursor.size_advance_lt ho
    let first ← type c.advance (by omega)
    have hf := first.shorter
    let items ← typesAfter type [first.value] first.rest (by omega) (Nat.le_of_lt_succ h)
    have hi := items.shorter
    let close ← items.rest.symbol .greater
    have hc := close.shorter
    return ⟨.tuple items.value, close.rest, by omega⟩
  else .error (c.unexpected .type)

/-- The reader of types for cursors with fewer than `n` tokens. -/
def typeBelow : (n : Nat) → TypeReader n
  | 0 => fun _ h => absurd h (Nat.not_lt_zero _)
  | n + 1 => typeStep (typeBelow n)

/-- Reads a type. -/
def type (c : Cursor) : Except ParseError (Parsed c.size VarType) :=
  typeBelow (c.size + 1) c c.size_lt_succ

end ProofScript.Grammar
