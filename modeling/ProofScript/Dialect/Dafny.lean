import ProofScript.Code.Dialect
import ProofScript.Path
import ProofScript.Text.Escape

/-!
# The notation of Dafny

A program includes the model of the language from a library directory. Terms are written with the
constructors of the model, lists as nested constructors, and names as string literals. An invariant
is a function to the truth values, and an equivalence is proved by one lemma for each method.
-/

namespace ProofScript.Dafny

/-! ## Terms -/

/-- A list of terms. -/
def consList (items : List String) : String :=
  items.foldr (fun item tail => "Cons(" ++ item ++ ", " ++ tail ++ ")") "LNil"

/-- The characters of a string literal that stand for a character. -/
def escape (c : Char) : List Char :=
  if c = '\\' then ['\\', '\\'] else if c = '"' then ['\\', '"'] else [c]

/-- A string literal. -/
def quote (s : String) : String := "\"" ++ Text.escapeWith escape s ++ "\""

/-- A list of string literals. -/
def nameList (names : List String) : String := consList (names.map quote)

/-- A literal value. -/
def value : Value → String
  | .int n => "Int(" ++ Text.decimal n ++ ")"
  | .nil => "Nil()"

/-- The names of the formal parameters of a method. -/
def formalNames (formals : List Node) : Except CodeFault (List String) :=
  formals.mapM fun formal =>
    match formal.varName? with
    | some name => .ok name
    | none => .error (.notFormal formal)

/-- The term of one layer, from the node and the terms of its children. The first fault from left
to right counts. -/
def layer (n : Node) (s : Shape (Except CodeFault String)) : Except CodeFault String :=
  match s with
  | .const v => .ok ("EConst(" ++ value v ++ ")")
  | .var name _ => .ok ("EVar(" ++ quote name ++ ")")
  | .tuple items => do return "ETuple(" ++ consList (← items.mapM id) ++ ")"
  | .seq a b => do
    let a ← a
    return "ESeq(" ++ a ++ ", " ++ (← b) ++ ")"
  | .compound object name index => do
    let object ← object
    return "ECVar(" ++ object ++ ", " ++ quote name ++ ", " ++ (← index) ++ ")"
  | .init name value _ => do return "Init(" ++ quote name ++ ", " ++ (← value) ++ ")"
  | .new fields body => do
    let fields ← fields.mapM id
    return "ENew(" ++ consList fields ++ ", " ++ (← body) ++ ")"
  | .method name _ body => do
    let formals ← match n.shape with
      | .method _ formals _ => formalNames formals
      | _ => .ok []
    return "EMethod(" ++ quote name ++ ", " ++ nameList formals ++ ", " ++ (← body) ++ ")"
  | .assign target value => do
    let target ← target
    return "EAssign(" ++ target ++ ", " ++ (← value) ++ ")"
  | .call receiver name args => do
    let receiver ← receiver
    return "ECall(" ++ receiver ++ ", " ++ quote name ++ ", " ++ consList (← args.mapM id) ++ ")"
  | .ite c p n => do
    let c ← c
    let p ← p
    return "EITE(" ++ c ++ ", " ++ p ++ ", " ++ (← n) ++ ")"
  | .nop => .ok "ENop()"
  | .script _ | .proof .. | .assert _ | .assume _ => .error (.notExpression n)

/-- The term of a tree. -/
def term (n : Node) : Except CodeFault String := n.fold layer

/-! ## Statements -/

/-- Evaluates a term in a context. A result alone is taken out of the pair that evaluation gives. -/
def eval (result context : Option String) (expr ctx : String) : String :=
  match result, context with
  | some result, none => "var " ++ result ++ " := Eval(" ++ expr ++ ", " ++ ctx ++ ", FUEL).0;"
  | _, _ =>
    "var (" ++ result.getD "_" ++ ", " ++ context.getD "_" ++ ") := Eval(" ++ expr ++ ", " ++ ctx
      ++ ", FUEL);"

/-- The context that holds a seed. -/
def seededContext (seed : Seed) : String :=
  "EmptyContext().(objs := AssocSet(EmptyContext().objs, 0, Object(Cons(Pair(\"" ++ seed.name
    ++ "\", Int(" ++ Text.decimal seed.value ++ ")), LNil))))"

/-- Prints a term and its value. -/
def trace (expr value : String) : List String :=
  ["Reflect_Expr(" ++ expr ++ "); print \" ==> \"; Reflect_Value(" ++ value
    ++ "); print \"\\n\";"]

/-! ## Definitions -/

/-- A parameter with its type. -/
def param (p : Param) : String := p.name ++ ": " ++ p.type

/-- A definition, its lines indented by two blanks. -/
def frame (d : Definition) : String :=
  let returns := match d.returns with
    | some type => ": " ++ type
    | none => ""
  d.kind.keyword ++ " " ++ d.name ++ "(" ++ ", ".intercalate (d.params.map param) ++ ")" ++ returns
    ++ "\n\x7b\n" ++ "\n".intercalate (d.lines.map ("  " ++ ·)) ++ "\n\x7d"

/-- The files of the language model. -/
def includes : List String := ["Lang.dfy", "Indistinguishable.dfy", "Refl.dfy"]

/-- The lines that include the language model from the directory `root`. -/
def prelude (root : String) : String :=
  "\n".intercalate (includes.map fun file =>
    "include \"" ++ Text.double '\\' (Path.join root file) ++ "\"")

/-- The method that runs the named definitions. -/
def entryPoint (run : List String) : List String :=
  [frame { kind := .method, name := "Main", params := [], returns := none,
           lines := run.map (· ++ "();") }]

/-! ## Invariants -/

/-- Emits an invariant with the given body, and returns its name. -/
def invariantFunction (lines : List String) : Building String := do
  let _ ← Building.openDef .function "invariant" invariantParams (some "bool")
  Building.emit lines
  Building.close false

/-- Evaluates a term as a method of the object on one side, and tests the result. -/
def sideCheck (side : Side) (expr : Node) (test : String) : Except CodeFault (List String) := do
  let (ctx, addr) := match side with
    | .lhs => ("ctx1", "addr1")
    | .rhs => ("ctx2", "addr2")
  return ["var ctx := " ++ ctx ++ ".(ths := " ++ addr ++ ");",
    "var ret := Eval(" ++ (← term expr) ++ ", ctx, FUEL).0;", test]

/-- The body of an invariant. -/
def invariantLines : Invariant → Except CodeFault (List String)
  | .always => .ok ["true"]
  | .never => .ok ["false"]
  | .equal lhs rhs => do
    let lhs ← term lhs
    let rhs ← term rhs
    return ["var ctx1' := ctx1.(scope := Cons(Pair(\"_lhs\", Ref(addr1)), ctx1.scope));",
      "var ctx2' := ctx2.(scope := Cons(Pair(\"_rhs\", Ref(addr2)), ctx2.scope));",
      "var (lhs', _) := Eval(" ++ lhs ++ ", ctx1', FUEL);",
      "var (rhs', _) := Eval(" ++ rhs ++ ", ctx2', FUEL);",
      "lhs' == rhs'"]
  | .valid side expr => sideCheck side expr "!ret.Error?"
  | .ref side expr => sideCheck side expr "ret.Ref?"
  | .int side expr => sideCheck side expr "ret.Int?"
  | .universal _ _ => .error .universal

/-- Emits an invariant and returns its name. -/
def invariant (inv : Invariant) : Building String := do
  let lines ← Building.ofTerm (invariantLines inv)
  invariantFunction lines

/-- Emits the conjunction of the named invariants and returns its name. -/
def conjunction (names : List String) : Building String :=
  invariantFunction [" && ".intercalate (names.map (· ++ "(ctx1, ctx2, addr1, addr2)"))]

/-! ## Lemmas -/

/-- The lemma that a method preserves the invariant. -/
def methodProof : Snippet := Snippet.ofLines
  ["lemma $proof(ctx1: Context, ctx2: Context, addr1: Addr, addr2: Addr$args)",
    "  requires $invariant(ctx1, ctx2, addr1, addr2)",
    "  ensures MethodPreserves($invariant, ctx1, ctx2, addr1, addr2, \"$method\", $cons_args)",
    "\x7b",
    "  var prefix := $prefix;",
    "  var lhs := $lhs;",
    "  var rhs := $rhs;",
    "$body",
    "\x7d"]

/-- The use of a lemma without arguments. -/
def useWithoutArgs : Snippet := Snippet.ofLines ["    $proof(ctx1, ctx2, addr1, addr2);"]

/-- The use of a lemma for all values of its arguments. -/
def useWithArgs : Snippet := Snippet.ofLines
  ["    forall $bvs",
    "      ensures MethodPreserves($invariant, ctx1, ctx2, addr1, addr2, \"$method\", $cons_args)",
    "    \x7b",
    "      $proof(ctx1, ctx2, addr1, addr2, $args);",
    "    \x7d"]

/-- The proof that uses all lemmas. -/
def equivalenceProof : Snippet := Snippet.ofLines
  ["method $proof()",
    "\x7b",
    "  var prefix := $prefix;",
    "  var lhs := $lhs;",
    "  var rhs := $rhs;",
    "  forall ctx1: Context, ctx2: Context, addr1: Addr, addr2: Addr "
      ++ "| $invariant(ctx1, ctx2, addr1, addr2)",
    "    ensures AllMethodsPreserve($invariant, ctx1, ctx2, addr1, addr2)",
    "  \x7b",
    "$body",
    "  \x7d",
    "  assert Equivalent(prefix, lhs, rhs, $invariant);",
    "\x7d"]

/-- The names under which the snippets are listed. -/
def snippetNames : List String :=
  ["equivalence_proof", "lemma_use_args", "lemma_use_noargs", "method_proof"]

/-- Binders that quantify over values. -/
def binders (vars : List String) : String := ", ".intercalate (vars.map (· ++ ": Value"))

/-- Variables at the end of a parameter list that is not empty. -/
def paramTail (vars : List String) : String :=
  if vars.isEmpty then "" else ", " ++ binders vars

/-- The notation for lemmas. -/
def lemmas : LemmaNotation where
  methodProof := methodProof
  useWithoutArgs := useWithoutArgs
  useWithArgs := useWithArgs
  equivalenceProof := equivalenceProof
  conjunction := conjunction
  binders := binders
  paramTail := paramTail
  valueList := consList
  callArgs vars := ", ".intercalate vars

/-! ## The dialect -/

/-- The notation of Dafny, with the language model in the directory `root`. -/
def dialect (root : String) : Dialect where
  backend := .dafny
  term := term
  emptyContext := "EmptyContext()"
  seededContext := seededContext
  bind name value := "var " ++ name ++ " := " ++ value ++ ";"
  eval := eval
  assertInt value n := "assert " ++ value ++ " == Int(" ++ Text.decimal n ++ ");"
  assertKind value kind := "assert " ++ value ++ "." ++ kind ++ "?;"
  trace := trace
  concede _ _ := ["// this goal is admitted", "assert true;"]
  validReplacement ctx lhs rhs old new assumptions :=
    "assert ValidRewrite(" ++ ctx ++ ", " ++ lhs ++ ", " ++ rhs ++ ", " ++ old ++ ", " ++ new
      ++ ", " ++ assumptions ++ ");"
  pairList pairs :=
    "[" ++ ", ".intercalate (pairs.map fun (l, r) => "(" ++ l ++ ", " ++ r ++ ")") ++ "]"
  invariant := invariant
  style := .methodLemmas lemmas
  frame := frame
  prelude := prelude root
  entryPoint := entryPoint

end ProofScript.Dafny
