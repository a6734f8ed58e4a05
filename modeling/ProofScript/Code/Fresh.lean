import ProofScript.NameMap

/-!
# Fresh names

Temporaries are named by a prefix and a number. The numbers of each prefix count up from zero.
-/

namespace ProofScript

/-- How many names have been drawn for each prefix. -/
structure FreshNames where
  /-- The number of the next name of a prefix; zero for a prefix that is not listed. -/
  next : NameMap Nat

namespace FreshNames

/-- No names drawn yet. -/
def start : FreshNames := ⟨NameMap.empty⟩

/-- The number of the next name with a prefix. -/
def count (names : FreshNames) (stem : String) : Nat := (names.next.get? stem).getD 0

/-- Draws the next name with a prefix. -/
def fresh (names : FreshNames) (stem : String) : String × FreshNames :=
  (stem ++ (names.count stem).repr, ⟨names.next.insert stem (names.count stem + 1)⟩)

/-- Draws a name for each prefix in a list. -/
def freshAll (names : FreshNames) : List String → List String × FreshNames
  | [] => ([], names)
  | stem :: stems =>
    let (name, names) := names.fresh stem
    let (rest, names) := names.freshAll stems
    (name :: rest, names)

end FreshNames

end ProofScript
