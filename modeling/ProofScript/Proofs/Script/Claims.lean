import ProofScript.Script.Invariant
import ProofScript.Proofs.Node.Marks

/-!
# The claims of a script

What a script claims can be read off its tree: an assertion makes one claim, and a proof chain makes
one for each arrow. The annotation of an arrow says what is claimed about its terms. A claim does
not depend on the marks of field initialisers, so a tree and its annotated form make the same
claims.
-/

namespace ProofScript

/-- What is to be checked of a script. -/
structure Claim where
  /-- The stem of the name under which the claim is checked. -/
  stem : String
  /-- Whether the claim speaks of an invariant over all arguments. -/
  universal : Bool
  deriving DecidableEq, Repr

/-- The claim of an assertion. -/
def Claim.assertion : Claim := { stem := "assertion", universal := false }

/-- The claim of a single run. -/
def Claim.run : Claim := { stem := "run", universal := false }

namespace Node

/-- Whether a node declares a method of the name `invariant`. -/
def isInvariantMethod (n : Node) : Bool :=
  match n.shape with
  | .method "invariant" _ _ => true
  | _ => false

/-- Whether some operand of a conjunction declares a method of the name `invariant`. -/
def asksUniversal (n : Node) : Bool := (Invariant.conjuncts n).any isInvariantMethod

/-- The claim of an arrow with a hint. -/
def arrowClaim (hint : Node) : Claim :=
  match hint.shape with
  | .call _ "Rewrite" [_, _] => { stem := "validrewrite", universal := false }
  | .var "Admit" _ => { stem := "admitted", universal := false }
  | _ => { stem := "equivalent", universal := hint.asksUniversal }

/-- The claim of an arrow with or without a hint. -/
def hintClaim (hint : Option Node) : Claim :=
  match hint with
  | none => { stem := "equivalent", universal := false }
  | some hint => hint.arrowClaim

/-- The claims of an item. A proof chain has an arrow behind each of its terms but the last. -/
def itemClaims (item : Node) : List Claim :=
  match item.shape with
  | .assert _ => [Claim.assertion]
  | .proof terms hints _ => (hints.take (terms.length - 1)).map hintClaim
  | _ => []

/-- The claims of a script, in the order of its items. -/
def claims (n : Node) : List Claim :=
  match n.shape with
  | .script items => items.flatMap itemClaims
  | _ => []

/-! ## Claims and marks -/

end Node

namespace Shape

variable {α β : Type}

/-- Whether a construct is a conjunction. -/
def IsAnd (s : Shape α) : Prop := ∃ receiver left right, s = call receiver "&" [left, right]

/-- Mapping the children makes no conjunctions. -/
theorem isAnd_of_map {s : Shape α} {f : α → β} {receiver left right : β}
    (h : s.map f = call receiver "&" [left, right]) : s.IsAnd := by
  cases s with
  | call receiver' name args =>
    obtain ⟨-, rfl, hargs⟩ := call.inj h
    obtain ⟨left', right', rfl⟩ := exists_pair_of_map hargs
    exact ⟨receiver', left', right', rfl⟩
  | _ => cases h

end Shape

namespace Node

/-- A conjunction has the operands of both its sides. -/
theorem conjuncts_and {id : NodeId} {span : Span} {receiver left right : Node} :
    Invariant.conjuncts (mk id span (.call receiver "&" [left, right])) =
      Invariant.conjuncts left ++ Invariant.conjuncts right := fold_mk _ _ _ _

/-- What is no conjunction is its own single operand. -/
theorem conjuncts_of_other {id : NodeId} {span : Span} {s : Shape Node} (h : ¬s.IsAnd) :
    Invariant.conjuncts (mk id span s) = [mk id span s] := by
  refine (fold_mk _ _ _ _).trans ?_
  split
  · next heq => exact absurd (Shape.isAnd_of_map heq) h
  · rfl

/-- The operands of a cleared conjunction are the cleared operands. -/
theorem conjuncts_unmarked (n : Node) :
    Invariant.conjuncts n.unmarked = (Invariant.conjuncts n).map unmarked := by
  induction n using induct with
  | step id span s ih =>
    rw [unmarked_mk]
    by_cases hand : s.IsAnd
    · obtain ⟨receiver, left, right, rfl⟩ := hand
      have hleft := ih left (by simp [Shape.children])
      have hright := ih right (by simp [Shape.children])
      rw [conjuncts_and, List.map_append, ← hleft, ← hright]
      exact conjuncts_and
    · have hother : ¬(s.map unmarked).unmarked.IsAnd := by
        rintro ⟨receiver, left, right, heq⟩
        cases s with
        | call => exact hand (Shape.isAnd_of_map heq)
        | _ => cases heq
      rw [conjuncts_of_other hother, conjuncts_of_other hand, List.map_singleton, unmarked_mk]

theorem isInvariantMethod_unmarked (n : Node) :
    n.unmarked.isInvariantMethod = n.isInvariantMethod := by
  unfold isInvariantMethod
  rw [shape_unmarked]
  cases n.shape with
  | method name formals body =>
    by_cases h : name = "invariant"
    · subst h
      rfl
    · simp [Shape.map, Shape.unmarked, h]
  | _ => rfl

theorem asksUniversal_unmarked (n : Node) : n.unmarked.asksUniversal = n.asksUniversal := by
  simp [asksUniversal, conjuncts_unmarked, isInvariantMethod_unmarked, Function.comp_def]

theorem arrowClaim_unmarked (hint : Node) : hint.unmarked.arrowClaim = hint.arrowClaim := by
  unfold arrowClaim
  rw [shape_unmarked, asksUniversal_unmarked]
  cases hint.shape with
  | call receiver name args =>
    by_cases h : name = "Rewrite"
    · subst h
      match args with
      | [] | [_] | [_, _] | _ :: _ :: _ :: _ => rfl
    · simp [Shape.map, Shape.unmarked, h]
  | _ => rfl

theorem hintClaim_unmarked (hint : Option Node) :
    hintClaim (hint.map unmarked) = hintClaim hint := by
  cases hint with
  | none => rfl
  | some hint => exact arrowClaim_unmarked hint

theorem itemClaims_unmarked (item : Node) : item.unmarked.itemClaims = item.itemClaims := by
  unfold itemClaims
  rw [shape_unmarked]
  cases item.shape with
  | proof terms hints verbatims =>
    simp [Shape.map, Shape.unmarked, ← List.map_take, hintClaim_unmarked, Function.comp_def]
  | _ => rfl

/-- Trees that agree up to marks make the same claims. -/
theorem claims_congr {n m : Node} (h : n.unmarked = m.unmarked) : n.claims = m.claims := by
  have clear : ∀ k : Node, k.unmarked.claims = k.claims := by
    intro k
    unfold claims
    rw [shape_unmarked]
    cases k.shape with
    | script items => simp [Shape.map, Shape.unmarked, List.flatMap_map, itemClaims_unmarked]
    | _ => rfl
  rw [← clear n, h, clear m]

end Node

end ProofScript
