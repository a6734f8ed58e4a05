import ProofScript.Proofs.Script.Hints

/-!
# Conjunctions of hints

A conjunction may be nested in any way. `Node.Operands` reads the operands off the tree, and a hint
states what its operands state, one after the other; the first operand that fails is the one that
counts. So two hints with the same operands state the same, however they are parenthesised
(`Invariant.ofHint_operands`).
-/

namespace ProofScript

/-- The operands of a hint that may be a conjunction, from left to right. -/
inductive Node.Operands : Node → List Node → Prop where
  | single {n : Node} (h : ¬n.shape.IsAnd) : Operands n [n]
  | both {n receiver a b : Node} {ns ms : List Node} (h : n.shape = .call receiver "&" [a, b])
    (ha : Operands a ns) (hb : Operands b ms) : Operands n (ns ++ ms)

namespace Node

variable {n : Node} {ns : List Node}

theorem operands_conjuncts (n : Node) : n.Operands (Invariant.conjuncts n) := by
  induction n using induct with
  | step id span s ih =>
    by_cases hand : s.IsAnd
    · obtain ⟨receiver, a, b, rfl⟩ := hand
      rw [conjuncts_and]
      exact .both rfl (ih a (by simp [Shape.children])) (ih b (by simp [Shape.children]))
    · rw [conjuncts_of_other hand]
      exact .single hand

/-- A hint has only one list of operands. -/
theorem Operands.eq_conjuncts (h : n.Operands ns) : ns = Invariant.conjuncts n := by
  induction h with
  | @single n hand =>
    obtain ⟨id, span, s⟩ := n
    exact (conjuncts_of_other hand).symm
  | @both n receiver a b ns ms hn _ _ iha ihb =>
    obtain ⟨id, span, s⟩ := n
    obtain rfl : s = .call receiver "&" [a, b] := hn
    rw [conjuncts_and, iha, ihb]

end Node

namespace Invariant

variable {hint context lhs rhs : Node} {operands : List Node}

/-- The loop over the operands of a conjunction is the loop over those of its left side, and then
the one over those of its right side. -/
theorem ofHint_of_operands (h : hint.Operands operands) :
    ofHint (some hint) context lhs rhs =
      (operands.mapM fun o => ofHint (some o) context lhs rhs).map List.flatten := by
  induction h with
  | @single n hand =>
    rw [List.mapM_cons, List.mapM_nil]
    cases ofHint (some n) context lhs rhs with
    | error e => rfl
    | ok invs => simp [bind, Except.bind, pure, Except.pure, Except.map]
  | @both n receiver a b ns ms hn _ _ iha ihb =>
    rw [ofHint_and hn, iha, ihb, List.mapM_append]
    cases ns.mapM fun o => ofHint (some o) context lhs rhs with
    | error e => rfl
    | ok invs =>
      cases ms.mapM fun o => ofHint (some o) context lhs rhs with
      | error e => rfl
      | ok invs' => simp [bind, Except.bind, pure, Except.pure, Except.map]

/-- A conjunction states what its left operand states and then what its right operand states, and
fails as the first of them that fails. So a hint states what its operands state, from left to right,
however they are nested: two hints with the same operands state the same. -/
theorem ofHint_operands (context lhs rhs : Node) :
    (∀ id span receiver a b,
      ofHint (some (.mk id span (.call receiver "&" [a, b]))) context lhs rhs =
        match ofHint (some a) context lhs rhs, ofHint (some b) context lhs rhs with
        | .ok left, .ok right => .ok (left ++ right)
        | .ok _, .error e => .error e
        | .error e, _ => .error e) ∧
    (∀ hint operands, Node.Operands hint operands →
      ofHint (some hint) context lhs rhs =
        (operands.mapM fun o => ofHint (some o) context lhs rhs).map List.flatten) ∧
    ∀ hint other operands, Node.Operands hint operands → Node.Operands other operands →
      ofHint (some hint) context lhs rhs = ofHint (some other) context lhs rhs := by
  refine ⟨fun id span receiver a b => ?_, fun hint operands h => ofHint_of_operands h, ?_⟩
  · rw [ofHint_and rfl]
    cases ofHint (some a) context lhs rhs with
    | error e => rfl
    | ok left => cases ofHint (some b) context lhs rhs <;> rfl
  · intro hint other operands h h'
    rw [ofHint_of_operands h, ofHint_of_operands h']

/-- Three operands with parentheses around the first two and around the last two. The one in the
middle stands for the default, and both objects have a field `x`. -/
theorem ofHint_operands_nested :
    let object := Node.detached (.new [Node.detached (.init "x" (Node.int 0) false)] Node.nop)
    let call (name : String) (args : List Node) := Node.detached (.call Node.nil name args)
    let valid := call "Valid" [Node.var "_lhs", Node.var "v"]
    let unknown := call "Unknown" []
    let both (a b : Node) := call "&" [a, b]
    let leftmost := both (both valid unknown) (Node.var "true")
    let rightmost := both valid (both unknown (Node.var "true"))
    leftmost.Operands [valid, unknown, Node.var "true"] ∧
      rightmost.Operands [valid, unknown, Node.var "true"] ∧
      ofHint (some leftmost) Node.nop object object = .ok [.valid .lhs (Node.var "v"),
        .equal (Node.field (Node.var "_lhs") "x") (Node.field (Node.var "_rhs") "x"), .always] ∧
      ofHint (some rightmost) Node.nop object object = .ok [.valid .lhs (Node.var "v"),
        .equal (Node.field (Node.var "_lhs") "x") (Node.field (Node.var "_rhs") "x"), .always] := by
  intro object call valid unknown both leftmost rightmost
  have hleft : leftmost.Operands [valid, unknown, Node.var "true"] :=
    Node.operands_conjuncts leftmost
  have hright : rightmost.Operands [valid, unknown, Node.var "true"] :=
    Node.operands_conjuncts rightmost
  have hstates : ofHint (some leftmost) Node.nop object object = .ok [.valid .lhs (Node.var "v"),
      .equal (Node.field (Node.var "_lhs") "x") (Node.field (Node.var "_rhs") "x"), .always] := by
    rfl
  have hsame := (ofHint_operands Node.nop object object).2.2 leftmost rightmost _ hleft hright
  exact ⟨hleft, hright, hstates, hsame ▸ hstates⟩

end Invariant

end ProofScript
