import ProofScript.Backend
import ProofScript.Code.Builder
import ProofScript.Script.Obligation

/-!
# Dialects

A dialect is the notation of one backend. It says how terms, statements and definitions are written;
which definitions a program has, and what they state, is the same for every dialect.
-/

namespace ProofScript

/-- What a proof by one lemma for each method needs. -/
structure LemmaNotation where
  /-- The text of the lemma for a method. -/
  methodProof : Snippet
  /-- The use of a lemma without arguments. -/
  useWithoutArgs : Snippet
  /-- The use of a lemma for all values of its arguments. -/
  useWithArgs : Snippet
  /-- The proof that uses all lemmas. -/
  equivalenceProof : Snippet
  /-- Emits a predicate that holds when all named invariants hold, and returns its name. -/
  conjunction : List String → Building String
  /-- Binders that quantify over variables. -/
  binders : List String → String
  /-- Variables at the end of a parameter list that is not empty. -/
  paramTail : List String → String
  /-- Variables as a list value. -/
  valueList : List String → String
  /-- Variables as arguments of a call. -/
  callArgs : List String → String

/-- How an equivalence is proved. -/
inductive EquivalenceStyle where
  /-- By one lemma for each method that both objects share. -/
  | methodLemmas (lemmas : LemmaNotation)
  /-- By one check of the two objects: the lines that state that `lhs` and `rhs`, each made after
  `ctx`, are equivalent under the named invariants. -/
  | wholeObject (check : (ctx lhs rhs : String) → (invariants : List String) → List String)

/-- The notation of a backend. -/
structure Dialect where
  /-- The backend. -/
  backend : Backend
  /-- A term. Nodes that only direct a proof have none. -/
  term : Node → Except CodeFault String
  /-- The context that holds nothing. -/
  emptyContext : String
  /-- The context that holds a seed. -/
  seededContext : Seed → String
  /-- Binds a name to a value. -/
  bind : (name value : String) → String
  /-- Evaluates a term in a context, and binds the result and the new context if they are named. -/
  eval : (result context : Option String) → (expr ctx : String) → String
  /-- States that a value is an integer. -/
  assertInt : (value : String) → Int64 → String
  /-- States that a value is of a kind. -/
  assertKind : (value kind : String) → String
  /-- Prints a term and its value. -/
  trace : (expr value : String) → List String
  /-- States nothing about two programs. -/
  concede : (lhs rhs : String) → List String
  /-- States that a replacement is valid. -/
  validReplacement : (ctx lhs rhs old new assumptions : String) → String
  /-- A list of pairs. -/
  pairList : List (String × String) → String
  /-- Emits an invariant and returns its name. -/
  invariant : Invariant → Building String
  /-- How an equivalence is proved. -/
  style : EquivalenceStyle
  /-- A definition. -/
  frame : Definition → String
  /-- The text that every program starts with. -/
  prelude : String
  /-- The texts that run the named definitions. -/
  entryPoint : List String → List String

/-- The program text of a builder: the prelude, the finished parts and the entry point. -/
def Builder.assemble (b : Builder) (d : Dialect) : Except CodeFault String :=
  match b.current with
  | some open? => .error (.assembleOpen open?.name)
  | none =>
    let items := b.items.map fun item =>
      match item with
      | .definition definition => d.frame definition
      | .global text => text
    .ok ("\n\n".intercalate (d.prelude :: items ++ d.entryPoint b.run))

end ProofScript
