import ProofScript.Proofs.Code.Emission
import ProofScript.Proofs.Code.Filling
import ProofScript.Proofs.Code.Reserved

/-!
# The texts of lemmas

In Dafny an equivalence is proved by a method behind one lemma for each method that both objects
have. Here are the texts of the lemma, of its use and of the proof, written out line by line, and
that they are what the snippets of the dialect give.
-/

namespace ProofScript.Dafny

/-- The lemma for a method. -/
structure MethodLemma where
  /-- The name of the method. -/
  method : String
  /-- The parameters that stand for the arguments of the method. -/
  values : List String

namespace MethodLemma

/-- The name of the lemma. -/
def name (l : MethodLemma) (e : Emit.Equated) : String := derived e.proof l.method

/-- The parameters of the lemma. -/
def params (l : MethodLemma) : List Param := invariantParams ++ l.values.map (⟨·, "Value"⟩)

/-- The line that says what the lemma states. -/
def ensures (l : MethodLemma) (e : Emit.Equated) (indent : String) : String :=
  indent ++ "ensures MethodPreserves(" ++ e.invariant ++ ", ctx1, ctx2, addr1, addr2, \"" ++
    l.method ++ "\", " ++ consList l.values ++ ")"

/-- The text of the lemma. -/
def text (l : MethodLemma) (e : Emit.Equated) (verbatim : String) : String :=
  "\n".intercalate [
    "lemma " ++ l.name e ++ "(" ++ ", ".intercalate (l.params.map param) ++ ")",
    "  requires " ++ e.invariant ++ "(ctx1, ctx2, addr1, addr2)",
    l.ensures e "  ",
    "\x7b",
    "  var prefix := " ++ e.context ++ ";",
    "  var lhs := " ++ e.lhs ++ ";",
    "  var rhs := " ++ e.rhs ++ ";",
    verbatim,
    "\x7d"]

/-- The call of the lemma, where all parameters have their own names. -/
def call (l : MethodLemma) (e : Emit.Equated) : String :=
  l.name e ++ "(" ++ ", ".intercalate (l.params.map Param.name) ++ ");"

/-- The use of the lemma, for all values when it has some. -/
def use (l : MethodLemma) (e : Emit.Equated) : String :=
  if l.values = [] then "    " ++ l.call e
  else "\n".intercalate [
    "    forall " ++ ", ".intercalate (l.values.map (· ++ ": Value")),
    l.ensures e "      ",
    "    \x7b",
    "      " ++ l.call e,
    "    \x7d"]

end MethodLemma

/-- The method that proves an equivalence, with the texts of the uses of lemmas. -/
def lemmasProof (e : Emit.Equated) (uses : List String) : String :=
  "\n".intercalate [
    "method " ++ e.proof ++ "()",
    "\x7b",
    "  var prefix := " ++ e.context ++ ";",
    "  var lhs := " ++ e.lhs ++ ";",
    "  var rhs := " ++ e.rhs ++ ";",
    "  forall ctx1: Context, ctx2: Context, addr1: Addr, addr2: Addr | " ++ e.invariant ++
      "(ctx1, ctx2, addr1, addr2)",
    "    ensures AllMethodsPreserve(" ++ e.invariant ++ ", ctx1, ctx2, addr1, addr2)",
    "  \x7b",
    "\n".intercalate uses,
    "  \x7d",
    "  assert Equivalent(prefix, lhs, rhs, " ++ e.invariant ++ ");",
    "\x7d"]

/-! ## Snippets -/

section Snippets

variable (e : Emit.Equated) (l : MethodLemma)

theorem intercalate_params (f : Param → String) :
    ", ".intercalate (l.params.map f) = ", ".intercalate (invariantParams.map f) ++
      if l.values.isEmpty then "" else
        ", " ++ ", ".intercalate (l.values.map fun v => f ⟨v, "Value"⟩) := by
  rw [MethodLemma.params, List.map_append, List.map_map]
  cases l.values with
  | nil => simp
  | cons v vs =>
    rw [String.intercalate_append_of_ne_nil (by simp [invariantParams]) (by simp),
      String.append_assoc]
    rfl

theorem declared_params :
    ", ".intercalate (l.params.map param) =
      "ctx1: Context, ctx2: Context, addr1: Addr, addr2: Addr" ++ paramTail l.values := by
  have hfixed : ", ".intercalate (invariantParams.map param) =
      "ctx1: Context, ctx2: Context, addr1: Addr, addr2: Addr" := by decide +kernel
  have hvalue : ∀ v, param ⟨v, "Value"⟩ = v ++ ": Value" := by
    intro v
    show v ++ ": " ++ "Value" = v ++ ": Value"
    rw [String.append_assoc]
    rfl
  rw [intercalate_params, hfixed, funext hvalue]
  rfl

theorem passed_params :
    ", ".intercalate (l.params.map Param.name) = "ctx1, ctx2, addr1, addr2" ++
      if l.values.isEmpty then "" else ", " ++ ", ".intercalate l.values := by
  have hfixed : ", ".intercalate (invariantParams.map Param.name) = "ctx1, ctx2, addr1, addr2" := by
    decide +kernel
  rw [intercalate_params, hfixed, List.map_id']

/-- The lines of the lemma for a method. -/
def methodProofLines : List Snippet.Line :=
  [([("lemma ", "proof"),
      ("(" ++ "ctx1: Context, ctx2: Context, addr1: Addr, addr2: Addr", "args")], ")"),
    ([("  requires ", "invariant")], "(ctx1, ctx2, addr1, addr2)"),
    ([("  " ++ "ensures MethodPreserves(", "invariant"),
      (", ctx1, ctx2, addr1, addr2, \"", "method"), ("\", ", "cons_args")], ")"),
    ([], "\x7b"),
    ([("  var prefix := ", "prefix")], ";"),
    ([("  var lhs := ", "lhs")], ";"),
    ([("  var rhs := ", "rhs")], ";"),
    ([("", "body")], ""),
    ([], "\x7d")]

/-- The lines of the use of a lemma without values. -/
def useWithoutArgsLines : List Snippet.Line :=
  [([("    ", "proof")], "(" ++ "ctx1, ctx2, addr1, addr2" ++ ");")]

/-- The lines of the use of a lemma for all values. -/
def useWithArgsLines : List Snippet.Line :=
  [([("    forall ", "bvs")], ""),
    ([("      " ++ "ensures MethodPreserves(", "invariant"),
      (", ctx1, ctx2, addr1, addr2, \"", "method"), ("\", ", "cons_args")], ")"),
    ([], "    \x7b"),
    ([("      ", "proof"), ("(" ++ "ctx1, ctx2, addr1, addr2" ++ ", ", "args")], ");"),
    ([], "    \x7d")]

/-- The lines of the method that uses the lemmas. -/
def equivalenceProofLines : List Snippet.Line :=
  [([("method ", "proof")], "()"),
    ([], "\x7b"),
    ([("  var prefix := ", "prefix")], ";"),
    ([("  var lhs := ", "lhs")], ";"),
    ([("  var rhs := ", "rhs")], ";"),
    ([("  forall ctx1: Context, ctx2: Context, addr1: Addr, addr2: Addr | ", "invariant")],
      "(ctx1, ctx2, addr1, addr2)"),
    ([("    ensures AllMethodsPreserve(", "invariant")], ", ctx1, ctx2, addr1, addr2)"),
    ([], "  \x7b"),
    ([("", "body")], ""),
    ([], "  \x7d"),
    ([("  assert Equivalent(prefix, lhs, rhs, ", "invariant")], ");"),
    ([], "\x7d")]

theorem methodProof_lines :
    methodProof.HasLines ["proof", "method", "prefix", "lhs", "rhs", "cons_args", "args",
      "invariant", "body"] methodProofLines := by
  have hwritten : methodProof = Snippet.ofLines
      (methodProofLines.map fun line => String.ofList (Snippet.written line.1 line.2)) := by
    decide +kernel
  rw [hwritten]
  exact Snippet.hasLines (by decide +kernel)

theorem useWithoutArgs_lines :
    useWithoutArgs.HasLines ["proof", "method", "bvs", "cons_args", "args", "invariant"]
      useWithoutArgsLines := by
  have hwritten : useWithoutArgs = Snippet.ofLines
      (useWithoutArgsLines.map fun line => String.ofList (Snippet.written line.1 line.2)) := by
    decide +kernel
  rw [hwritten]
  exact Snippet.hasLines (by decide +kernel)

theorem useWithArgs_lines :
    useWithArgs.HasLines ["proof", "method", "bvs", "cons_args", "args", "invariant"]
      useWithArgsLines := by
  have hwritten : useWithArgs = Snippet.ofLines
      (useWithArgsLines.map fun line => String.ofList (Snippet.written line.1 line.2)) := by
    decide +kernel
  rw [hwritten]
  exact Snippet.hasLines (by decide +kernel)

theorem equivalenceProof_lines :
    equivalenceProof.HasLines ["proof", "prefix", "lhs", "rhs", "invariant", "body"]
      equivalenceProofLines := by
  have hwritten : equivalenceProof = Snippet.ofLines
      (equivalenceProofLines.map fun line => String.ofList (Snippet.written line.1 line.2)) := by
    decide +kernel
  rw [hwritten]
  exact Snippet.hasLines (by decide +kernel)

theorem substitute_methodProof (verbatim : String) :
    methodProof.substitute (Emit.methodValues lemmas e verbatim l.method l.values) =
      .ok (l.text e verbatim) := by
  rw [Snippet.substitute_lines (Emit.methodValues ..) methodProof_lines]
  refine congrArg (fun filled => Except.ok ("\n".intercalate filled)) ?_
  simp [-String.reduceAppend, methodProofLines, Snippet.filledLine, Emit.methodValues,
    List.lookup_cons, String.append_assoc, declared_params, MethodLemma.name, MethodLemma.ensures,
    derived, lemmas]

theorem substitute_use :
    (if l.values.isEmpty then useWithoutArgs else useWithArgs).substitute
      (Emit.useValues lemmas e l.method l.values) = .ok (l.use e) := by
  rw [MethodLemma.use, MethodLemma.call, passed_params]
  by_cases hv : l.values = []
  · rw [if_pos (by simp [hv]), if_pos hv, if_pos (by simp [hv])]
    rw [Snippet.substitute_lines (Emit.useValues ..) useWithoutArgs_lines]
    simp [-String.reduceAppend, useWithoutArgsLines, Snippet.filledLine, Emit.useValues,
      List.lookup_cons, String.append_assoc, MethodLemma.name, derived]
  · rw [if_neg (by simp [hv]), if_neg hv, if_neg (by simp [hv])]
    rw [Snippet.substitute_lines (Emit.useValues ..) useWithArgs_lines]
    refine congrArg (fun filled => Except.ok ("\n".intercalate filled)) ?_
    simp [-String.reduceAppend, useWithArgsLines, Snippet.filledLine, Emit.useValues,
      List.lookup_cons, String.append_assoc, MethodLemma.name, MethodLemma.ensures, derived, lemmas,
      binders]

theorem substitute_equivalenceProof (uses : List String) :
    equivalenceProof.substitute (Emit.proofValues e uses) = .ok (lemmasProof e uses) := by
  rw [Snippet.substitute_lines (Emit.proofValues ..) equivalenceProof_lines]
  refine congrArg (fun filled => Except.ok ("\n".intercalate filled)) ?_
  simp [-String.reduceAppend, equivalenceProofLines, Snippet.filledLine, Emit.proofValues,
    List.lookup_cons, String.append_assoc]

/-- A lemma starts with its name. -/
theorem text_starts (verbatim : String) :
    ∃ rest, l.text e verbatim = "lemma " ++ (l.name e ++ rest) := by
  rw [MethodLemma.text, String.intercalate_cons_cons]
  simp only [String.append_assoc]
  exact ⟨_, rfl⟩

/-- The proof that uses the lemmas starts with its name and has no parameters. -/
theorem lemmasProof_starts (uses : List String) :
    ∃ rest, lemmasProof e uses = "method " ++ (e.proof ++ ("()" ++ rest)) := by
  rw [lemmasProof, String.intercalate_cons_cons]
  simp only [String.append_assoc]
  exact ⟨_, rfl⟩

end Snippets

end ProofScript.Dafny
