import ProofScript.Code.Dialect
import ProofScript.Path
import ProofScript.Text.Escape

/-!
# The notation of Rosette

A program requires the interpreter of the language from a library directory. Everything is written
as parenthesised lists, and names as quoted symbols. An invariant is a value that wraps a predicate,
and an equivalence is proved by one check of both objects.
-/

namespace ProofScript.Rosette

/-! ## Terms -/

/-- A literal value. -/
def value : Value → String
  | .int n => "(Int " ++ Text.decimal n ++ ")"
  | .nil => "(Nil)"

mutual

/-- A type. -/
def varType : VarType → String
  | .value => "'value"
  | .tuple items => "(list " ++ " ".intercalate (varTypes items) ++ ")"

/-- A list of types. -/
def varTypes : List VarType → List String
  | [] => []
  | t :: ts => varType t :: varTypes ts

end

/-- A list. -/
def list (items : List String) : String := "(list" ++ String.join (items.map (" " ++ ·)) ++ ")"

/-- The symbol that names an operator or a method. A bar is doubled. -/
def symbol (name : String) : String := "'" ++ Text.double '|' name

/-- The term of one layer, from the node and the terms of its children. The first fault from left
to right counts. -/
def layer (n : Node) (s : Shape (Except CodeFault String)) : Except CodeFault String :=
  match s with
  | .const v => .ok ("(EConst " ++ value v ++ ")")
  | .var name none => .ok ("(EVar '" ++ name ++ ")")
  | .var name (some type) => .ok ("(EVar '" ++ name ++ " " ++ varType type ++ ")")
  | .tuple items => do return "(ETuple " ++ list (← items.mapM id) ++ ")"
  | .seq a b => do
    let a ← a
    return "(ESeq " ++ a ++ " " ++ (← b) ++ ")"
  | .compound object name index => do
    let object ← object
    return "(ECVar " ++ object ++ " '" ++ name ++ " " ++ (← index) ++ ")"
  | .init name value immutable => do
    return "(Init '" ++ name ++ " " ++ (← value) ++ (if immutable then " #t)" else " #f)")
  | .new fields body => do
    let fields ← fields.mapM id
    return "(ENew " ++ list fields ++ " " ++ (← body) ++ ")"
  | .method name formals body => do
    let formals ← formals.mapM id
    return "(EMethod '" ++ name ++ " " ++ list formals ++ " " ++ (← body) ++ ")"
  | .assign target value => do
    let target ← target
    return "(EAssign " ++ target ++ " " ++ (← value) ++ ")"
  | .call receiver name args => do
    let receiver ← receiver
    return "(ECall " ++ receiver ++ " " ++ symbol name ++ " " ++ list (← args.mapM id) ++ ")"
  | .ite c p n => do
    let c ← c
    let p ← p
    return "(EITE " ++ c ++ " " ++ p ++ " " ++ (← n) ++ ")"
  | .nop => .ok "(ENop)"
  | .script _ | .proof .. | .assert _ | .assume _ => .error (.notExpression n)

/-- The term of a tree. -/
def term (n : Node) : Except CodeFault String := n.fold layer

/-! ## Statements and definitions -/

/-- The context that holds a seed. -/
def seededContext (seed : Seed) : String :=
  "(Context-with-objs (EmptyContext) (list (cons 0 (Object (list (cons '" ++ seed.name ++ " (Int "
    ++ Text.decimal seed.value ++ ")))))))"

/-- Evaluates a term in a context. -/
def eval (result context : Option String) (expr ctx : String) : String :=
  "(match-define (cons " ++ result.getD "_" ++ " " ++ context.getD "_" ++ ") (Eval " ++ expr ++ " "
    ++ ctx ++ " FUEL))"

/-- Prints a term and its value. -/
def trace (expr value : String) : List String :=
  ["(print-expr " ++ expr ++ ") (display \" ==> \") (print-value " ++ value
    ++ ") (display \"\\n\")"]

/-- A definition, its lines indented by two blanks. Parameters have no types. -/
def frame (d : Definition) : String :=
  "(define (" ++ d.name ++ String.join (d.params.map (" " ++ ·.name)) ++ ")\n"
    ++ "\n".intercalate (d.lines.map ("  " ++ ·)) ++ ")"

/-- The files of the interpreter. -/
def requires : List String := ["eval.rkt", "indistinguishable.rkt", "print.rkt"]

/-- The lines that require the interpreter from the directory `root`. -/
def prelude (root : String) : String :=
  "#lang rosette\n\n" ++ "\n".intercalate (requires.map fun file =>
    "(require (file \"" ++ Text.double '\\' (Path.join root file) ++ "\"))")

/-! ## Invariants -/

/-- Emits an invariant with the given body under a fresh name for `stem`, and returns the name. -/
def invariantGlobal (stem : String) (lines : List String) : Building String := do
  let name ← Building.fresh stem
  Building.global ("(define " ++ name
    ++ "\n  (EquivalenceInvariant (lambda (ctx1 ctx2 addr1 addr2)\n"
    ++ "\n".intercalate (lines.map ("    " ++ ·)) ++ ")))") none
  return name

/-- Evaluates a term as a method of the object on one side, and tests the result. -/
def sideCheck (side : Side) (expr : Node) (test : String) : Except CodeFault (List String) := do
  let (ctx, addr) := match side with
    | .lhs => ("ctx1", "addr1")
    | .rhs => ("ctx2", "addr2")
  return ["(define ctx (Context-with-ths " ++ ctx ++ " " ++ addr ++ "))",
    "(match-define (cons ret _) (Eval " ++ (← term expr) ++ " ctx))", test]

/-- The body of the invariant that two terms have equal values. -/
def equalLines (lhs rhs : Node) : Except CodeFault (List String) := do
  let lhs ← term lhs
  let rhs ← term rhs
  return ["(define (extend-with tag val ctx) (Context-with-scope ctx "
      ++ "(assoc-set tag val (Context-scope ctx))))",
    "(define ctx1* (extend-with '_lhs (Ref addr1) ctx1))",
    "(define ctx2* (extend-with '_rhs (Ref addr2) ctx2))",
    "(match-define (cons lhs* _) (Eval " ++ lhs ++ " ctx1*))",
    "(match-define (cons rhs* _) (Eval " ++ rhs ++ " ctx2*))",
    "(equal? lhs* rhs*)"]

/-- Emits the invariant that a body has a value on both sides for all arguments, and returns its
name. The arguments and the scope that binds them are values of their own. -/
def universal (args : List Node) (body : Node) : Building String := do
  let formals ← Building.ofTerm (args.mapM term)
  let params ← Building.fresh "args"
  let scope ← Building.fresh "scope"
  Building.global ("(define " ++ params ++ " " ++ list formals ++ ")") none
  Building.global ("(define " ++ scope ++ " (for/list ([v " ++ params
    ++ "]) (cons (EVar-name v) (HavocArg v))))") none
  let body ← Building.ofTerm (term body)
  let call (result ctx addr : String) := "(match-define (cons " ++ result
    ++ " _) (Call_With_Scope body " ++ ctx ++ " " ++ scope ++ " " ++ addr ++ " FUEL))"
  invariantGlobal "invariant" ["(define body " ++ body ++ ")",
    "(define qvs (symbolics " ++ scope ++ "))",
    call "retL" "ctx1" "addr1", call "retR" "ctx2" "addr2",
    "(forall qvs (and (not (Error? retL)) (not (Error? retR))))"]

/-- Emits an invariant and returns its name. -/
def invariant (inv : Invariant) : Building String := do
  match inv with
  | .always => invariantGlobal "true_invariant" ["#t"]
  | .never => invariantGlobal "false_invariant" ["#f"]
  | .equal lhs rhs =>
    invariantGlobal "equal_invariant" (← Building.ofTerm (equalLines lhs rhs))
  | .valid side expr =>
    invariantGlobal "valid_invariant"
      (← Building.ofTerm (sideCheck side expr "(not (Error? ret))"))
  | .ref side expr =>
    invariantGlobal "ref_invariant" (← Building.ofTerm (sideCheck side expr "(Ref? ret)"))
  | .int side expr =>
    invariantGlobal "int_invariant" (← Building.ofTerm (sideCheck side expr "(Int? ret)"))
  | .universal args body => universal args body

/-- The lines that check the equivalence of two objects. -/
def equivalent (ctx lhs rhs : String) (invariants : List String) : List String :=
  ["(define invariants " ++ list invariants ++ ")",
    "(check-proof (Equivalent " ++ ctx ++ " " ++ lhs ++ " " ++ rhs ++ " invariants))"]

/-! ## The dialect -/

/-- The notation of Rosette, with the interpreter in the directory `root`. -/
def dialect (root : String) : Dialect where
  backend := .rosette
  term := term
  emptyContext := "(EmptyContext)"
  seededContext := seededContext
  bind name value := "(define " ++ name ++ " " ++ value ++ ")"
  eval := eval
  assertInt value n := "(check-assert (equal? " ++ value ++ " (Int " ++ Text.decimal n ++ ")))"
  assertKind value kind := "(check-assert (" ++ kind ++ "? " ++ value ++ "))"
  trace := trace
  concede lhs rhs :=
    ["; this goal is admitted", "(check-proof (AdmitProof " ++ lhs ++ " " ++ rhs ++ "))"]
  validReplacement ctx lhs rhs old new assumptions :=
    "(check-proof (ValidRewrite " ++ lhs ++ " " ++ rhs ++ " " ++ ctx ++ " " ++ old ++ " " ++ new
      ++ " " ++ assumptions ++ "))"
  pairList pairs := list (pairs.map fun (l, r) => "(cons " ++ l ++ " " ++ r ++ ")")
  invariant := invariant
  style := .wholeObject equivalent
  frame := frame
  prelude := prelude root
  entryPoint run := run.map fun name => "(" ++ name ++ ")"

end ProofScript.Rosette
