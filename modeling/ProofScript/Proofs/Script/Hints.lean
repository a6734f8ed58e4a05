import ProofScript.Proofs.Script.Claims
import ProofScript.Proofs.Script.Preceding

/-!
# What a hint says

A hint is read by its construct: a call by its name and its arguments, a name, or a method
declaration. `Shape.States` lists the hints that state a single invariant. A conjunction states what
its operands state, and any other hint stands for the default (`ofHint_meaning`).

Neither reading looks at the receiver of a call. An annotation is written as a call without a
receiver, but a call of a method of some object is taken for the annotation when it has the name and
the number of arguments of one (`ofHint_receiver`).
-/

namespace ProofScript

/-- A hint of this construct states a single invariant. -/
inductive Shape.States : Shape Node → Invariant → Prop where
  /-- `Equal(lhs, rhs)` -/
  | equal {receiver lhs rhs : Node} : States (.call receiver "Equal" [lhs, rhs]) (.equal lhs rhs)
  /-- `Valid(_lhs, expr)` or `Valid(_rhs, expr)` -/
  | valid {receiver object expr : Node} {side : Side} (named : object.varName? = some side.name) :
      States (.call receiver "Valid" [object, expr]) (.valid side expr)
  /-- `Ref(_lhs, expr)` or `Ref(_rhs, expr)` -/
  | ref {receiver object expr : Node} {side : Side} (named : object.varName? = some side.name) :
      States (.call receiver "Ref" [object, expr]) (.ref side expr)
  /-- `Int(_lhs, expr)` or `Int(_rhs, expr)` -/
  | int {receiver object expr : Node} {side : Side} (named : object.varName? = some side.name) :
      States (.call receiver "Int" [object, expr]) (.int side expr)
  /-- `true` -/
  | always {type : Option VarType} : States (.var "true" type) .always
  /-- `false` -/
  | never {type : Option VarType} : States (.var "false" type) .never
  /-- A declaration of a method of the name `invariant`. -/
  | universal {args : List Node} {body : Node} :
      States (.method "invariant" args body) (.universal args body)

theorem Side.ofNode?_eq_some {n : Node} {side : Side} :
    Side.ofNode? n = some side ↔ n.varName? = some side.name := by
  unfold ofNode?
  constructor
  · intro h
    split at h
    · next hn => cases h; exact hn
    · next hn => cases h; exact hn
    · cases h
  · intro h
    rw [h]
    cases side <;> rfl

namespace Invariant

variable {hint context lhs rhs : Node} {inv : Invariant}

theorem ofConjunct?_eq_some : ofConjunct? hint = some inv ↔ hint.shape.States inv := by
  unfold ofConjunct?
  constructor
  · intro h
    split at h
    · next hs => cases h; rw [hs]; exact .equal
    · next hs =>
      obtain ⟨side, hside, rfl⟩ := Option.map_eq_some_iff.1 h
      rw [hs]
      exact .valid (Side.ofNode?_eq_some.1 hside)
    · next hs =>
      obtain ⟨side, hside, rfl⟩ := Option.map_eq_some_iff.1 h
      rw [hs]
      exact .ref (Side.ofNode?_eq_some.1 hside)
    · next hs =>
      obtain ⟨side, hside, rfl⟩ := Option.map_eq_some_iff.1 h
      rw [hs]
      exact .int (Side.ofNode?_eq_some.1 hside)
    · next hs => cases h; rw [hs]; exact .always
    · next hs => cases h; rw [hs]; exact .never
    · next hs => cases h; rw [hs]; exact .universal
    · cases h
  · intro h
    generalize hint.shape = s at h
    cases h with
    | equal | always | never | universal => rfl
    | valid named | ref named | int named => simp [Side.ofNode?_eq_some.2 named]

/-- What states a single invariant is no conjunction. -/
theorem not_isAnd_of_states {s : Shape Node} (h : s.States inv) : ¬s.IsAnd := by
  rintro ⟨receiver, left, right, hand⟩
  cases h <;> simp at hand

/-- A hint that is no conjunction states a single invariant or the default. -/
theorem ofHint_of_other (h : ¬hint.shape.IsAnd) :
    ofHint (some hint) context lhs rhs =
      match ofConjunct? hint with
      | some inv => .ok [inv]
      | none => defaults context lhs rhs := by
  obtain ⟨id, span, s⟩ := hint
  have hs : ¬s.IsAnd := h
  rw [ofHint, Node.conjuncts_of_other hs, List.mapM_cons, List.mapM_nil]
  cases ofConjunct? (Node.mk id span s) with
  | some inv => rfl
  | none => cases defaults context lhs rhs <;> simp [pure, Except.pure, bind, Except.bind]

/-- A conjunction states what its operands state, the left one first. -/
theorem ofHint_and {receiver left right : Node}
    (h : hint.shape = .call receiver "&" [left, right]) :
    ofHint (some hint) context lhs rhs = do
      return (← ofHint (some left) context lhs rhs) ++ (← ofHint (some right) context lhs rhs) := by
  obtain ⟨id, span, s⟩ := hint
  obtain rfl : s = .call receiver "&" [left, right] := h
  rw [ofHint, Node.conjuncts_and, List.mapM_append]
  simp [ofHint]

/-- What a hint says. A hint that states a single invariant gives that invariant, a conjunction
gives what its operands give, and any other hint gives the default. An arrow asks for a replacement
when its hint is a call of `Rewrite` with two arguments. All of this is so for any receiver. -/
theorem ofHint_meaning (hint context lhs rhs : Node) :
    (∀ inv, hint.shape.States inv → ofHint (some hint) context lhs rhs = .ok [inv]) ∧
    (∀ receiver left right, hint.shape = .call receiver "&" [left, right] →
      ofHint (some hint) context lhs rhs = do
        return (← ofHint (some left) context lhs rhs) ++
          (← ofHint (some right) context lhs rhs)) ∧
    (¬hint.shape.IsAnd → (∀ inv, ¬hint.shape.States inv) →
      ofHint (some hint) context lhs rhs = defaults context lhs rhs) ∧
    ∀ verbatim assumptions l r c old new taken,
      (⟨lhs, rhs, some hint, verbatim⟩ : Arrow).obligation context assumptions =
          .ok (.replacement l r c old new taken) ↔
        (∃ receiver, hint.shape = .call receiver "Rewrite" [old, new]) ∧
          l = lhs ∧ r = rhs ∧ c = context ∧ taken = assumptions := by
  refine ⟨fun inv h => ?_, fun _ _ _ h => ofHint_and h, fun hand hnone => ?_, ?_⟩
  · rw [ofHint_of_other (not_isAnd_of_states h), ofConjunct?_eq_some.2 h]
  · rw [ofHint_of_other hand]
    cases hinv : ofConjunct? hint with
    | none => rfl
    | some inv => exact absurd (ofConjunct?_eq_some.1 hinv) (hnone inv)
  · intro verbatim assumptions l r c old new taken
    constructor
    · intro h
      cases Arrow.gives_of_obligation h with
      | replacement hhint hcall =>
        obtain rfl := Option.some.inj hhint
        exact ⟨⟨_, hcall⟩, rfl, rfl, rfl, rfl⟩
    · rintro ⟨hcall, rfl, rfl, rfl, rfl⟩
      have hterms := replacementTerms?_eq_some.2 hcall
      simp [Arrow.obligation, hterms]

/-- A conjunction of a check of one side and an unknown call, for two objects with a field `x`; and
a call that asks for a replacement. -/
theorem ofHint_meaning_conjunction :
    let object := Node.detached (.new [Node.detached (.init "x" (Node.int 0) false)] Node.nop)
    let call (name : String) (args : List Node) := Node.detached (.call Node.nil name args)
    let valid := call "Valid" [Node.var "_lhs", Node.var "v"]
    let unknown := call "Unknown" []
    let rewrite := call "Rewrite" [Node.int 1, Node.int 2]
    ofHint (some (call "&" [valid, unknown])) Node.nop object object =
        .ok [.valid .lhs (Node.var "v"),
          .equal (Node.field (Node.var "_lhs") "x") (Node.field (Node.var "_rhs") "x")] ∧
      (⟨object, object, some rewrite, ""⟩ : Arrow).obligation Node.nop [] =
        .ok (.replacement object object Node.nop (Node.int 1) (Node.int 2) []) := by
  intro object call valid unknown rewrite
  have hdefaults : defaults Node.nop object object =
      .ok [.equal (Node.field (Node.var "_lhs") "x") (Node.field (Node.var "_rhs") "x")] := by rfl
  have hother : ¬unknown.shape.IsAnd := by
    rintro ⟨receiver, left, right, hand⟩
    simp [unknown, call, Node.detached, Node.shape] at hand
  have hnone : ∀ inv, ¬unknown.shape.States inv := by
    intro inv h
    generalize hs : unknown.shape = s at h
    cases h <;> simp [unknown, call, Node.detached, Node.shape] at hs
  constructor
  · rw [(ofHint_meaning _ _ _ _).2.1 Node.nil valid unknown rfl,
      (ofHint_meaning valid _ _ _).1 (.valid .lhs (Node.var "v")) (.valid rfl),
      (ofHint_meaning unknown _ _ _).2.2.1 hother hnone, hdefaults]
    rfl
  · exact ((ofHint_meaning rewrite _ _ _).2.2.2 _ _ _ _ _ _ _ _).2 ⟨⟨_, rfl⟩, rfl, rfl, rfl, rfl⟩

/-- The call `o.Equal(a, b)` of a method of an object is no annotation, but it is read as one: it
states an invariant of its own instead of the default. In the same way `o.Rewrite(a, b)` asks for a
replacement. -/
theorem ofHint_receiver :
    let object := Node.detached (.new [Node.detached (.init "x" (Node.int 0) false)] Node.nop)
    let call (name : String) :=
      Node.detached (.call (Node.var "o") name [Node.var "a", Node.var "b"])
    (call "Equal").freeCall?.isNone = true ∧
      ofHint (some (call "Equal")) Node.nop object object =
        .ok [.equal (Node.var "a") (Node.var "b")] ∧
      ofHint (some (call "Equal")) Node.nop object object ≠ defaults Node.nop object object ∧
      (call "Rewrite").freeCall?.isNone = true ∧
      (⟨object, object, some (call "Rewrite"), ""⟩ : Arrow).obligation Node.nop [] =
        .ok (.replacement object object Node.nop (Node.var "a") (Node.var "b") []) := by
  intro object call
  have hhint : ofHint (some (call "Equal")) Node.nop object object =
      .ok [.equal (Node.var "a") (Node.var "b")] := by rfl
  have hdefaults : defaults Node.nop object object =
      .ok [.equal (Node.field (Node.var "_lhs") "x") (Node.field (Node.var "_rhs") "x")] := by rfl
  refine ⟨rfl, hhint, ?_, rfl, rfl⟩
  rw [hhint, hdefaults]
  simp [Node.var, Node.field, Node.detached]

end Invariant

end ProofScript
