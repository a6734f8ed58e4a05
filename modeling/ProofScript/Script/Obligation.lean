import ProofScript.Object.Immutability
import ProofScript.Script.Directive
import ProofScript.Script.Invariant
import ProofScript.Grammar.Script

/-!
# Obligations

What has to be checked of a script. In proof mode every assertion and every arrow of a proof chain
gives one obligation, in the order of the script; the statements before it are its context, and a
replacement also takes the assumptions before it. In evaluation mode the assertions are followed by
a single run of all statements.
-/

namespace ProofScript

/-- What has to be checked. -/
inductive Obligation where
  /-- After `program`, the condition evaluates to one. -/
  | assertion (program condition : Node)
  /-- Two objects, each made after `context`, are equivalent under invariants. The verbatim text
  is part of the proof. -/
  | equivalence (lhs rhs context : Node) (invariants : List Invariant) (verbatim : String)
  /-- A goal that is left unproved on purpose. -/
  | concede (lhs rhs context : Node)
  /-- `lhs` becomes `rhs` when `old` is replaced by `new`, under assumptions. -/
  | replacement (lhs rhs context old new : Node) (assumptions : List (Node × Node))
  /-- The terms are evaluated in order and each result is printed. -/
  | run (terms : List Node) (seed : Option Seed) (expect : Option Expectation)

/-! ## Errors -/

/-- Why a script has no obligations. -/
inductive ProofFault where
  /-- The tree is malformed. -/
  | tree (fault : TreeFault)
  /-- The tree is no script. -/
  | notScript (found : Tag)
  /-- A proof chain with fewer than two terms, or not one slot for each term. -/
  | chain (terms hints verbatims : Nat)
  /-- An assumption that does not relate two terms. -/
  | assumption (found : Node)
  /-- A script among the items of a script. -/
  | nestedScript
  /-- A seed that cannot be read. -/
  | seed (text : String) (fault : SeedFault)

/-- A fault and the place that it concerns. -/
structure ProofError where
  /-- What is wrong. -/
  fault : ProofFault
  /-- Where it is wrong. -/
  span : Span

/-- The wording of a fault. -/
def ProofFault.message : ProofFault → String
  | tree fault => "malformed AST: " ++ fault.message
  | notScript found => "expected a top-level script, got " ++ found.name
  | chain terms hints verbatims =>
    "proof chain needs at least two terms and one annotation slot per term (terms: "
      ++ terms.repr ++ ", hints: " ++ hints.repr ++ ", verbatims: " ++ verbatims.repr ++ ")"
  | assumption found => "assumption must relate exactly two terms: " ++ found.text
  | nestedScript => "nested top-level container"
  | seed text fault => fault.message text

/-- The wording of an error, without its place. -/
def ProofError.message (e : ProofError) : String := "proof error: " ++ e.fault.message

/-- A malformed tree, met while obligations are built. -/
def ProofError.ofTree (e : TreeError) : ProofError := { fault := .tree e.fault, span := e.span }

/-- Reads a seed; an error concerns the whole text. -/
def Seed.read (text : String) : Except ProofError Seed :=
  (Seed.ofText text).mapError fun fault =>
    { fault := .seed text fault, span := ⟨0, text.utf8ByteSize⟩ }

/-- The seed that the directives of a script give. -/
def Directives.seed (d : Directives) : Except ProofError (Option Seed) :=
  match d.seedText? with
  | none => .ok none
  | some text => do return some (← Seed.read text)

/-! ## Proof chains -/

/-- An arrow of a proof chain, with the terms that it relates. -/
structure Arrow where
  /-- The term before the arrow. -/
  lhs : Node
  /-- The term after the arrow. -/
  rhs : Node
  /-- The hint on the arrow. -/
  hint : Option Node
  /-- The verbatim text on the arrow. -/
  verbatim : String

/-- The arrows of a proof chain, from its terms and its slots. -/
def Arrow.ofChain : List Node → List (Option Node) → List String → List Arrow
  | lhs :: rest, hint :: hints, verbatim :: verbatims =>
    match rest with
    | [] => []
    | rhs :: _ => ⟨lhs, rhs, hint, verbatim⟩ :: ofChain rest hints verbatims
  | _, _, _ => []

/-- The two arguments of the call that asks for a replacement. -/
def replacementTerms? (hint : Node) : Option (Node × Node) :=
  match hint.shape with
  | .call _ "Rewrite" [old, new] => some (old, new)
  | _ => none

/-- Whether a hint is the bare name `Admit`. -/
def isAdmit (hint : Node) : Bool := hint.varName? == some "Admit"

/-- The obligation of an arrow after `context`, under the assumptions made so far. -/
def Arrow.obligation (a : Arrow) (context : Node) (assumptions : List (Node × Node)) :
    Except ProofError Obligation :=
  match a.hint.bind replacementTerms? with
  | some (old, new) => .ok (.replacement a.lhs a.rhs context old new assumptions)
  | none =>
    if (a.hint.map isAdmit).getD false then .ok (.concede a.lhs a.rhs context)
    else
      match Invariant.ofHint a.hint context a.lhs a.rhs with
      | .error e => .error (ProofError.ofTree e)
      | .ok invariants => .ok (.equivalence a.lhs a.rhs context invariants a.verbatim)

/-! ## Scripts -/

/-- A script whose field initialisers are marked, ready to be turned into obligations. -/
structure Script where
  /-- The items. -/
  items : List Node
  /-- The seed of a run. -/
  seed : Option Seed
  /-- The expected result of a run. -/
  expect : Option Expectation

namespace Script

/-- The script that a tree holds, without seed and expectation. -/
def ofNode (n : Node) : Except ProofError Script :=
  match n.annotateImmutable with
  | .error e => .error (ProofError.ofTree e)
  | .ok annotated =>
    match annotated.shape with
    | .script items => .ok { items := items, seed := none, expect := none }
    | other => .error { fault := .notScript other.tag, span := n.span }

/-- What has been gathered from the items of a script so far. -/
structure Progress where
  /-- The statements so far. -/
  context : Node
  /-- The assumptions so far. -/
  assumptions : List (Node × Node)
  /-- The obligations so far. -/
  obligations : List Obligation

/-- Nothing gathered yet. -/
def Progress.start : Progress := { context := Node.nop, assumptions := [], obligations := [] }

/-- Gathers the obligations of one item in proof mode. -/
def proofStep (p : Progress) (item : Node) : Except ProofError Progress :=
  match item.shape with
  | .proof terms hints verbatims =>
    if terms.length < 2 || hints.length != terms.length || verbatims.length != terms.length then
      .error { fault := .chain terms.length hints.length verbatims.length, span := item.span }
    else do
      let obligations ← (Arrow.ofChain terms hints verbatims).mapM fun a =>
        a.obligation p.context p.assumptions
      return { p with obligations := p.obligations ++ obligations }
  | .assert condition =>
    .ok { p with obligations := p.obligations ++ [.assertion p.context condition] }
  | .assume chain =>
    match chain.shape with
    | .proof [a, b] _ _ => .ok { p with assumptions := p.assumptions ++ [(a, b)] }
    | _ => .error { fault := .assumption chain, span := item.span }
  | .script _ => .error { fault := .nestedScript, span := item.span }
  | _ => .ok { p with context := p.context.andThen item }

/-- The obligations of a script in proof mode. -/
def proofObligations (s : Script) : Except ProofError (List Obligation) := do
  return (← s.items.foldlM proofStep Progress.start).obligations

/-- Gathers the assertion of one item in evaluation mode. -/
def evalStep (p : Progress) (item : Node) : Progress :=
  match item.shape with
  | .assert condition =>
    { p with obligations := p.obligations ++ [.assertion p.context condition] }
  | _ => if item.isSurface then p else { p with context := p.context.andThen item }

/-- The statements of a script. -/
def statements (s : Script) : List Node := s.items.filter fun item => !item.isSurface

/-- The obligations of a script in evaluation mode. -/
def runObligations (s : Script) : List Obligation :=
  (s.items.foldl evalStep Progress.start).obligations ++ [.run s.statements s.seed s.expect]

end Script

/-- Why a source text has no obligations. -/
inductive ScriptError where
  /-- The text does not follow the grammar. -/
  | syntactic (e : SyntaxError)
  /-- The script cannot be turned into obligations. -/
  | proof (e : ProofError)

/-- The wording of an error, without its place. -/
def ScriptError.message : ScriptError → String
  | syntactic e => e.message
  | proof e => e.message

/-- The script that a source text holds, without seed and expectation. -/
def Script.ofSource (source : String) : Except ScriptError Script :=
  match Node.ofScript source with
  | .error e => .error (.syntactic e)
  | .ok n => (Script.ofNode n).mapError .proof

end ProofScript
