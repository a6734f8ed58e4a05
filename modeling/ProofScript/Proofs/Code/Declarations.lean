import ProofScript.Proofs.Code.Emission
import ProofScript.Proofs.Code.Reserved

/-!
# The names in a program

A part of a program, as far as names are concerned, is a declaration (`Declaration`): its own name,
its parameters, and for each step of its body the local names that the step uses and binds and the
other declarations that it mentions. `Dialect.Declares` says what the text of a declaration is, and
`Dialect.Writes` what the lines of a step are; terms have no local names, since they quote the names
of the program that they stand for.

A list of declarations is hygienic (`Hygienic`) when no two have the same name, each mentions
earlier ones only, and in each body a local name is bound once, on a line before those that use it.
-/

namespace ProofScript

/-! ## Declarations -/

/-- A step of a body. -/
structure Step where
  /-- The local names that are used. -/
  uses : List String := []
  /-- The local names that are bound. -/
  binds : List String := []
  /-- The names of other declarations. -/
  mentions : List String := []

/-- A part of a program that declares a name. -/
structure Declaration where
  /-- The name. -/
  name : String
  /-- The names of the parameters. -/
  params : List String := []
  /-- The steps of the body, in order. -/
  steps : List Step

/-- The names of other declarations in a body. -/
def Declaration.mentions (decl : Declaration) : List String := decl.steps.flatMap Step.mentions

/-- The steps use names that are bound before them, and bind names that are not bound yet. -/
def WellScoped : List String → List Step → Prop
  | _, [] => True
  | bound, step :: rest =>
    (∀ x ∈ step.uses, x ∈ bound) ∧ step.binds.Nodup ∧ (∀ x ∈ step.binds, x ∉ bound) ∧
      WellScoped (bound ++ step.binds) rest

/-- The names of a program that runs the names in `run` are used as they should be. -/
structure Hygienic (ds : List Declaration) (run : List String) : Prop where
  /-- No name is declared twice. -/
  nodup : (ds.map Declaration.name).Nodup
  /-- What runs is declared. -/
  run : ∀ name ∈ run, name ∈ ds.map Declaration.name
  /-- What is mentioned is declared before. -/
  earlier : ∀ before decl after, ds = before ++ decl :: after →
    ∀ name ∈ decl.mentions, name ∈ before.map Declaration.name
  /-- In each body, local names are bound once, and before they are used. -/
  bodies : ∀ decl ∈ ds, decl.params.Nodup ∧ WellScoped decl.params decl.steps

/-! ## The lines of a step -/

/-- The text of a value without local names: a term, a context to start with, or pairs of terms. -/
inductive Dialect.Closed (d : Dialect) : String → Prop where
  | term {n : Node} {text : String} (h : d.term n = .ok text) : Closed d text
  | empty : Closed d d.emptyContext
  | seeded (seed : Seed) : Closed d (d.seededContext seed)
  | pairs {pairs : List (String × String)}
    (h : ∀ pair ∈ pairs, (∃ n, d.term n = .ok pair.1) ∧ ∃ n, d.term n = .ok pair.2) :
    Closed d (d.pairList pairs)

/-- The lines of a step in a definition that the program runs. The given texts are copied. -/
inductive Dialect.Writes (d : Dialect) (verbatims : List String) : List String → Step → Prop where
  | bind {name value : String} (h : d.Closed value) :
    Writes d verbatims [d.bind name value] { binds := [name] }
  | evalEmpty {result context : Option String} {expr : String} :
    Writes d verbatims [d.eval result context expr d.emptyContext]
      { uses := [expr], binds := result.toList ++ context.toList }
  | eval {result context : Option String} {expr ctx : String} :
    Writes d verbatims [d.eval result context expr ctx]
      { uses := [expr, ctx], binds := result.toList ++ context.toList }
  | assertInt {value : String} {n : Int64} :
    Writes d verbatims [d.assertInt value n] { uses := [value] }
  | assertKind {value kind : String} :
    Writes d verbatims [d.assertKind value kind] { uses := [value] }
  | trace {expr value : String} :
    Writes d verbatims (d.trace expr value) { uses := [expr, value] }
  | concede {lhs rhs : String} : Writes d verbatims (d.concede lhs rhs) { uses := [lhs, rhs] }
  | validReplacement {ctx lhs rhs old new assumptions : String} (hold : d.Closed old)
    (hnew : d.Closed new) :
    Writes d verbatims [d.validReplacement ctx lhs rhs old new assumptions]
      { uses := [ctx, lhs, rhs, assumptions] }
  | verbatim {text : String} (h : text ∈ verbatims) :
    Writes d verbatims ((Text.lines text).filter fun line => !Text.allBlank line) {}
  -- The two lines by which Rosette checks an equivalence.
  | invariants {names : List String} :
    Writes d verbatims ["(define invariants " ++ Rosette.list names ++ ")"]
      { binds := ["invariants"], mentions := names }
  | equivalent {ctx lhs rhs : String} :
    Writes d verbatims
      ["(check-proof (Equivalent " ++ ctx ++ " " ++ lhs ++ " " ++ rhs ++ " invariants))"]
      { uses := [ctx, lhs, rhs, "invariants"] }

/-- The line of a step in an invariant of Dafny. -/
inductive Dafny.Tests : String → Step → Prop where
  | const {value : String} (h : value ∈ ["true", "false"]) : Tests value {}
  -- The context in which an object is the receiver.
  | receiver (name ctx addr : String) :
    Tests ("var " ++ name ++ " := " ++ ctx ++ ".(ths := " ++ addr ++ ");")
      { uses := [ctx, addr], binds := [name] }
  -- The context in which an object has a name.
  | scope (name ctx tag addr : String) :
    Tests ("var " ++ name ++ " := " ++ ctx ++ ".(scope := Cons(Pair(\"" ++ tag ++ "\", Ref(" ++ addr
      ++ ")), " ++ ctx ++ ".scope));") { uses := [ctx, addr], binds := [name] }
  | result (name ctx : String) {text : String} {n : Node} (h : Dafny.term n = .ok text) :
    Tests ("var " ++ name ++ " := Eval(" ++ text ++ ", " ++ ctx ++ ", FUEL).0;")
      { uses := [ctx], binds := [name] }
  | pair (name ctx : String) {text : String} {n : Node} (h : Dafny.term n = .ok text) :
    Tests ("var (" ++ name ++ ", _) := Eval(" ++ text ++ ", " ++ ctx ++ ", FUEL);")
      { uses := [ctx], binds := [name] }
  | noError (value : String) : Tests ("!" ++ value ++ ".Error?") { uses := [value] }
  | kind (value : String) {kind : String} (h : kind ∈ ["Ref", "Int"]) :
    Tests (value ++ "." ++ kind ++ "?") { uses := [value] }
  | equal (left right : String) : Tests (left ++ " == " ++ right) { uses := [left, right] }
  | conjunction (names : List String) :
    Tests (" && ".intercalate (names.map (· ++ "(ctx1, ctx2, addr1, addr2)")))
      { uses := ["ctx1", "ctx2", "addr1", "addr2"], mentions := names }

/-- The lines of an invariant of Rosette over all arguments: the body, and the scope that binds the
arguments. -/
def Rosette.universalLines (body scope : String) : List String :=
  let call (result ctx addr : String) := "(match-define (cons " ++ result
    ++ " _) (Call_With_Scope body " ++ ctx ++ " " ++ scope ++ " " ++ addr ++ " FUEL))"
  ["(define body " ++ body ++ ")", "(define qvs (symbolics " ++ scope ++ "))",
    call "retL" "ctx1" "addr1", call "retR" "ctx2" "addr2",
    "(forall qvs (and (not (Error? retL)) (not (Error? retR))))"]

/-- The lines of an invariant of Rosette, and the declarations that they mention. -/
inductive Rosette.Tests : List String → List String → Prop where
  | const {value : String} (h : value ∈ ["#t", "#f"]) : Tests [value] []
  | equal {lhs rhs : Node} {lines : List String} (h : Rosette.equalLines lhs rhs = .ok lines) :
    Tests lines []
  | side {side : Side} {expr : Node} {test : String} {lines : List String}
    (htest : test ∈ ["(not (Error? ret))", "(Ref? ret)", "(Int? ret)"])
    (h : Rosette.sideCheck side expr test = .ok lines) : Tests lines []
  | universal {body scope : String} {n : Node} (h : Rosette.term n = .ok body) :
    Tests (Rosette.universalLines body scope) [scope]

/-! ## The texts of declarations -/

/-- The texts that the lemmas of an equivalence share are terms, but for the names. -/
def Emit.Equated.IsClosed (d : Dialect) (e : Emit.Equated) : Prop :=
  d.Closed e.context ∧ d.Closed e.lhs ∧ d.Closed e.rhs

/-- The text by which a lemma for a method is used. The lemma has the given variables. -/
def LemmaNotation.useOf (l : LemmaNotation) (e : Emit.Equated) (lemma? : String × List String) :
    Except TemplateFault String :=
  let (method, vars) := lemma?
  (if vars.isEmpty then l.useWithoutArgs else l.useWithArgs).substitute
    (Emit.useValues l e method vars)

/-- A part of a program makes a declaration. The given texts are copied. -/
inductive Dialect.Declares (d : Dialect) (verbatims : List String) : Item → Declaration → Prop where
  -- A definition that the program runs.
  | claim {name : String} {groups : List (List String)} {steps : List Step}
    (h : List.Forall₂ (d.Writes verbatims) groups steps) :
    Declares d verbatims (.definition ⟨.method, name, [], none, groups.flatten⟩)
      { name := name, steps := steps }
  -- An invariant of Dafny.
  | predicate {name : String} {lines : List String} {steps : List Step}
    (h : List.Forall₂ Dafny.Tests lines steps) :
    Declares d verbatims (.definition ⟨.function, name, invariantParams, some "bool", lines⟩)
      { name := name, params := invariantParams.map Param.name, steps := steps }
  -- The lemma for a method.
  | methodLemma {l : LemmaNotation} {e : Emit.Equated} {verbatim method text : String}
    {vars : List String} (hl : d.style = .methodLemmas l) (he : e.IsClosed d)
    (hverbatim : verbatim ∈ verbatims)
    (h : l.methodProof.substitute (Emit.methodValues l e verbatim method vars) = .ok text) :
    Declares d verbatims (.global text)
      { name := derived e.proof method, steps := [{ mentions := [e.invariant] }] }
  -- The proof that uses the lemmas for methods.
  | lemmasProof {l : LemmaNotation} {e : Emit.Equated} {lemmas : List (String × List String)}
    {uses : List String} {text : String} (hl : d.style = .methodLemmas l) (he : e.IsClosed d)
    (huses : List.Forall₂ (fun lemma? use => l.useOf e lemma? = .ok use) lemmas uses)
    (h : l.equivalenceProof.substitute (Emit.proofValues e uses) = .ok text) :
    Declares d verbatims (.global text)
      { name := e.proof
        steps := [{
          mentions := e.invariant :: lemmas.map fun lemma? => derived e.proof lemma?.1 }] }
  -- An invariant of Rosette, and the two values that come with one over all arguments.
  | value {name : String} {lines mentions : List String} (h : Rosette.Tests lines mentions) :
    Declares d verbatims (.global ("(define " ++ name
      ++ "\n  (EquivalenceInvariant (lambda (ctx1 ctx2 addr1 addr2)\n"
      ++ "\n".intercalate (lines.map ("    " ++ ·)) ++ ")))"))
      { name := name, steps := [{ mentions := mentions }] }
  | args {name : String} {args : List Node} {formals : List String}
    (h : args.mapM Rosette.term = .ok formals) :
    Declares d verbatims (.global ("(define " ++ name ++ " " ++ Rosette.list formals ++ ")"))
      { name := name, steps := [] }
  | scope {name args : String} :
    Declares d verbatims (.global ("(define " ++ name ++ " (for/list ([v " ++ args
      ++ "]) (cons (EVar-name v) (HavocArg v))))"))
      { name := name, steps := [{ mentions := [args] }] }

/-- The texts that the obligations copy into a program. -/
def Obligation.verbatims (os : List Obligation) : List String :=
  os.filterMap fun o =>
    match o with
    | .equivalence _ _ _ _ verbatim => some verbatim
    | _ => none

/-! ## Scopes -/

theorem wellScoped_append {bound : List String} {steps more : List Step} :
    WellScoped bound (steps ++ more) ↔
      WellScoped bound steps ∧ WellScoped (bound ++ steps.flatMap Step.binds) more := by
  induction steps generalizing bound with
  | nil => simp [WellScoped]
  | cons step rest ih =>
    rw [List.cons_append, WellScoped, WellScoped, ih, List.flatMap_cons, List.append_assoc]
    tauto

theorem Hygienic.nil : Hygienic [] [] where
  nodup := List.nodup_nil
  run := List.forall_mem_nil _
  earlier before decl after h := by simp at h
  bodies := List.forall_mem_nil _

/-- A declaration may be added when its name is new and it mentions what is declared. -/
theorem Hygienic.snoc {ds : List Declaration} {run : List String} {decl : Declaration}
    (h : Hygienic ds run) (hnew : decl.name ∉ ds.map Declaration.name)
    (hmentions : ∀ name ∈ decl.mentions, name ∈ ds.map Declaration.name)
    (hparams : decl.params.Nodup) (hscoped : WellScoped decl.params decl.steps)
    {more : Option String} (hmore : ∀ name ∈ more, name = decl.name) :
    Hygienic (ds ++ [decl]) (run ++ more.toList) where
  nodup := by
    rw [List.map_append, List.nodup_append]
    refine ⟨h.nodup, List.nodup_singleton _, ?_⟩
    rintro name hname _ hlast rfl
    rw [List.map_singleton, List.mem_singleton] at hlast
    exact hnew (hlast ▸ hname)
  run := by
    intro name hname
    rw [List.map_append]
    rcases List.mem_append.1 hname with hname | hname
    · exact List.mem_append_left _ (h.run name hname)
    · obtain rfl := hmore name (Option.mem_toList.1 hname)
      exact List.mem_append_right _ (by simp)
  earlier before decl' after hds := by
    -- The declaration is the new one, or the list is split before it.
    rcases List.eq_nil_or_concat' after with rfl | ⟨behind, last, rfl⟩
    · obtain ⟨rfl, hlast⟩ := List.append_inj' hds rfl
      obtain rfl := (List.cons.inj hlast).1
      exact hmentions
    · rw [← List.cons_append, ← List.append_assoc] at hds
      obtain ⟨hsame, -⟩ := List.append_inj' hds rfl
      exact h.earlier before decl' behind hsame
  bodies := by
    intro other hother
    rcases List.mem_append.1 hother with hother | hother
    · exact h.bodies other hother
    · obtain rfl := List.mem_singleton.1 hother
      exact ⟨hparams, hscoped⟩

end ProofScript
