import ProofScript.Dialect.Dafny
import ProofScript.Dialect.Rosette

/-!
# Programs from obligations

Every obligation becomes one definition that the program runs, whatever the dialect: an assertion, a
replacement, a goal that is left unproved and a run each become a method, and an equivalence is
proved in the style of the dialect. What an obligation needs besides, such as its invariants, is
emitted in front of it.
-/

namespace ProofScript

namespace Emit

variable (d : Dialect)

/-- Emits an assertion. -/
def assertion (program condition : Node) : Building Unit := do
  let prog ← Building.fresh "prog"
  let ctx ← Building.fresh "ctx"
  let ret ← Building.fresh "ret"
  let cond ← Building.fresh "cond"
  let _ ← Building.openDef .method "assertion" [] none
  let program ← Building.ofTerm (d.term program)
  let condition ← Building.ofTerm (d.term condition)
  Building.emit [d.bind prog program, d.eval none (some ctx) prog d.emptyContext,
    d.bind cond condition, d.eval (some ret) none cond ctx, d.assertInt ret 1]
  let _ ← Building.close true

/-- Emits a goal that is left unproved. -/
def concede (lhs rhs context : Node) : Building Unit := do
  let _ ← Building.openDef .method "admitted" [] none
  let l ← Building.fresh "lhs"
  let r ← Building.fresh "rhs"
  let lhs ← Building.ofTerm (d.term (Node.seq context lhs))
  let rhs ← Building.ofTerm (d.term (Node.seq context rhs))
  Building.emit [d.bind l lhs, d.bind r rhs]
  Building.emit (d.concede l r)
  let _ ← Building.close true

/-- The terms of a list of pairs. -/
def pairTerms (pairs : List (Node × Node)) : Building (List (String × String)) :=
  pairs.mapM fun (a, b) => do
    let a ← Building.ofTerm (d.term a)
    return (a, ← Building.ofTerm (d.term b))

/-- Emits a replacement. An assumption holds in both directions. -/
def replacement (lhs rhs context old new : Node) (assumptions : List (Node × Node)) :
    Building Unit := do
  let _ ← Building.openDef .method "validrewrite" [] none
  let ctx ← Building.fresh "ctx"
  let l ← Building.fresh "lhs"
  let r ← Building.fresh "rhs"
  let assumed ← Building.fresh "assumptions"
  let forward ← pairTerms d assumptions
  let backward ← pairTerms d (assumptions.map Prod.swap)
  let context ← Building.ofTerm (d.term context)
  let lhs ← Building.ofTerm (d.term lhs)
  let rhs ← Building.ofTerm (d.term rhs)
  let old ← Building.ofTerm (d.term old)
  let new ← Building.ofTerm (d.term new)
  Building.emit [d.bind ctx context, d.bind l lhs, d.bind r rhs,
    d.bind assumed (d.pairList (forward ++ backward)), d.validReplacement ctx l r old new assumed]
  let _ ← Building.close true

/-- Emits the evaluation of terms one after the other from the context `ctx`, and returns the name
of the last result. -/
def evaluations (ctx : String) (last : Option String) : List Node → Building (Option String)
  | [] => return last
  | term :: terms => do
    let expr ← Building.fresh "expr"
    let ret ← Building.fresh "ret"
    let next ← Building.fresh "ctx"
    let text ← Building.ofTerm (d.term term)
    Building.emit [d.bind expr text, d.eval (some ret) (some next) expr ctx]
    Building.emit (d.trace expr ret)
    evaluations next (some ret) terms

/-- The lines that check the result of a run. A run without terms has no result to check. -/
def expectation (expect : Option Expectation) (result : Option String) : List String :=
  match expect, result with
  | some (.int n), some ret => [d.assertInt ret n]
  | some (.kind kind), some ret => [d.assertKind ret kind]
  | _, _ => []

/-- Emits a run. -/
def run (terms : List Node) (seed : Option Seed) (expect : Option Expectation) :
    Building Unit := do
  let initial := match seed with
    | some seed => d.seededContext seed
    | none => d.emptyContext
  let _ ← Building.openDef .method "run" [] none
  let ctx ← Building.fresh "initctx"
  Building.emit [d.bind ctx initial]
  let result ← evaluations d ctx none terms
  Building.emit (expectation d expect result)
  let _ ← Building.close true

/-- The number of formal parameters of a method. -/
def arity (n : Node) : Nat :=
  match n.shape with
  | .method _ formals _ => formals.length
  | _ => 0

/-- The methods of `left` that `right` has too, with the same number of formal parameters, in the
order of their names. -/
def sharedMethods (left right : Option (NameMap Node)) : List (String × Nat) :=
  match left, right with
  | some left, some right =>
    left.entries.filterMap fun (name, declaration) =>
      if (right.get? name).map arity = some (arity declaration) then some (name, arity declaration)
      else none
  | _, _ => []

/-- The texts that all lemmas of an equivalence share. -/
structure Equated where
  /-- The name of the proof. -/
  proof : String
  /-- The program that makes the objects. -/
  context : String
  /-- The object on the left. -/
  lhs : String
  /-- The object on the right. -/
  rhs : String
  /-- The name of the invariant. -/
  invariant : String

/-- Emits the lemma for a method and returns the text that uses it. -/
def methodLemma (l : LemmaNotation) (e : Equated) (verbatim method : String) (arity : Nat) :
    Building String := do
  let proof := e.proof ++ "_" ++ method
  let vars ← (List.replicate arity "v").mapM Building.fresh
  let values := l.valueList vars
  let text ← Building.ofTemplate (l.methodProof.substitute
    [("proof", proof), ("method", method), ("prefix", e.context), ("lhs", e.lhs), ("rhs", e.rhs),
      ("cons_args", values), ("args", l.paramTail vars), ("invariant", e.invariant),
      ("body", verbatim)])
  Building.global text none
  let use := if vars.isEmpty then l.useWithoutArgs else l.useWithArgs
  Building.ofTemplate (use.substitute
    [("proof", proof), ("method", method), ("bvs", l.binders vars), ("cons_args", values),
      ("args", l.callArgs vars), ("invariant", e.invariant)])

/-- Emits a proof of an equivalence by one lemma for each shared method. -/
def methodLemmas (l : LemmaNotation) (lhs rhs context : Node) (verbatim : String)
    (invariants : List String) : Building Unit := do
  let objects ← Building.ofTree (Objects.ofNodes [context, lhs, rhs])
  let proof ← Building.fresh "equivalent"
  let contextText ← Building.ofTerm (d.term context)
  let lhsText ← Building.ofTerm (d.term lhs)
  let rhsText ← Building.ofTerm (d.term rhs)
  let invariant ← match invariants with
    | [name] => pure name
    | names => l.conjunction names
  let e : Equated :=
    { proof := proof, context := contextText, lhs := lhsText, rhs := rhsText,
      invariant := invariant }
  let shared := sharedMethods (objects.methodsOf? lhs) (objects.methodsOf? rhs)
  let uses ← shared.mapM fun (method, arity) => methodLemma l e verbatim method arity
  let text ← Building.ofTemplate (l.equivalenceProof.substitute
    [("proof", proof), ("prefix", contextText), ("lhs", lhsText), ("rhs", rhsText),
      ("invariant", invariant), ("body", "\n".intercalate uses)])
  Building.global text (some proof)

/-- Emits a proof of an equivalence by one check of both objects. -/
def wholeObject (check : String → String → String → List String → List String)
    (lhs rhs context : Node) (verbatim : String) (invariants : List String) : Building Unit := do
  let _ ← Building.openDef .method "equivalent" [] none
  let ctx ← Building.fresh "ctx"
  let l ← Building.fresh "lhs"
  let r ← Building.fresh "rhs"
  let context ← Building.ofTerm (d.term context)
  let lhs ← Building.ofTerm (d.term lhs)
  let rhs ← Building.ofTerm (d.term rhs)
  Building.emit [d.bind ctx context, d.bind l lhs, d.bind r rhs]
  Building.emit ((Text.lines verbatim).filter fun line => !Text.allBlank line)
  Building.emit (check ctx l r invariants)
  let _ ← Building.close true

/-- Emits an equivalence. Without invariants, the one that always holds is used. -/
def equivalence (lhs rhs context : Node) (invariants : List Invariant) (verbatim : String) :
    Building Unit := do
  let invariants := if invariants.isEmpty then [Invariant.always] else invariants
  let names ← invariants.mapM d.invariant
  match d.style with
  | .methodLemmas l => methodLemmas d l lhs rhs context verbatim names
  | .wholeObject check => wholeObject d check lhs rhs context verbatim names

/-- Emits an obligation. -/
def obligation : Obligation → Building Unit
  | .assertion program condition => assertion d program condition
  | .equivalence lhs rhs context invariants verbatim =>
    equivalence d lhs rhs context invariants verbatim
  | .concede lhs rhs context => concede d lhs rhs context
  | .replacement lhs rhs context old new assumptions =>
    replacement d lhs rhs context old new assumptions
  | .run terms seed expect => run d terms seed expect

end Emit

/-- The notation of a backend, with its library in the directory `root`. -/
def Backend.dialect (backend : Backend) (root : String) : Dialect :=
  match backend with
  | .dafny => Dafny.dialect root
  | .rosette => Rosette.dialect root

/-- The program that states a list of obligations. -/
def Dialect.program (d : Dialect) (obligations : List Obligation) : Except CodeFault String :=
  match (obligations.forM (Emit.obligation d)).run.run Builder.start with
  | (.ok _, b) => b.assemble d
  | (.error fault, _) => .error fault

end ProofScript
