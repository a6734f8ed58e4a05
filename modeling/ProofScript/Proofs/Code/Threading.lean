import ProofScript.Code.Emit
import ProofScript.Proofs.Code.Building
import ProofScript.Proofs.Code.Reserved

/-!
# Runs

A run evaluates its terms one after the other, each in the context that the one before has left. The
generated definition has no loop: it holds lines for each term (`Evaluation.lines`), and the context
is handed on through variables (`Evaluation.threaded`). The names of the variables are drawn while
the lines are written. That they are all different is part of the statement (`RunLines`), and so is
that no line but the last claims anything.
-/

namespace ProofScript

/-! ## The lines of a run -/

/-- The evaluation of a term. -/
structure Evaluation where
  /-- The text of the term. -/
  text : String
  /-- The variable that the term is bound to. -/
  expr : String
  /-- The variable that the result is bound to. -/
  result : String
  /-- The variable that the context after the evaluation is bound to. -/
  context : String

namespace Evaluation

/-- The variables that an evaluation binds. -/
def names (e : Evaluation) : List String := [e.expr, e.result, e.context]

/-- The lines of an evaluation in a context: the term is bound, evaluated and printed with its
result. -/
def lines (d : Dialect) (ctx : String) (e : Evaluation) : List String :=
  [d.bind e.expr e.text, d.eval (some e.result) (some e.context) e.expr ctx] ++
    d.trace e.expr e.result

/-- The lines of several evaluations. The first is in the given context, and each of the others in
the context that the one before it binds. -/
def threaded (d : Dialect) (ctx : String) (es : List Evaluation) : List String :=
  ((ctx :: es.map context).zip es).flatMap fun p => p.2.lines d p.1

variable {d : Dialect} {ctx : String} {e : Evaluation} {es : List Evaluation}

@[simp] theorem threaded_nil : threaded d ctx [] = [] := rfl

@[simp] theorem threaded_cons :
    threaded d ctx (e :: es) = e.lines d ctx ++ threaded d e.context es := rfl

end Evaluation

/-- Whether a line of a program claims something. -/
def Backend.claims : Backend → String → Bool
  | .dafny, line => "assert ".toList.isPrefixOf line.toList
  | .rosette, line => "(check-".toList.isPrefixOf line.toList

/-- Of the lines in a run, only the checks claim something. -/
structure Dialect.TellsClaims (d : Dialect) : Prop where
  /-- A binding. -/
  bind : ∀ name value, d.backend.claims (d.bind name value) = false
  /-- An evaluation. -/
  eval : ∀ result context expr ctx,
    d.backend.claims (d.eval (some result) (some context) expr ctx) = false
  /-- The lines that print a result. -/
  trace : ∀ expr value, ∀ line ∈ d.trace expr value, d.backend.claims line = false
  /-- An integer is claimed. -/
  assertInt : ∀ value n, d.backend.claims (d.assertInt value n) = true
  /-- A kind is claimed. -/
  assertKind : ∀ value kind, d.backend.claims (d.assertKind value kind) = true

namespace Dialect.TellsClaims

variable {d : Dialect}

theorem threaded (hd : d.TellsClaims) (ctx : String) (es : List Evaluation) :
    ∀ line ∈ Evaluation.threaded d ctx es, d.backend.claims line = false := by
  induction es generalizing ctx with
  | nil => exact List.forall_mem_nil _
  | cons e es ih =>
    rw [Evaluation.threaded_cons, List.forall_mem_append]
    refine ⟨?_, ih e.context⟩
    rw [Evaluation.lines, List.forall_mem_append]
    refine ⟨?_, hd.trace _ _⟩
    rw [List.forall_mem_cons, List.forall_mem_singleton]
    exact ⟨hd.bind _ _, hd.eval _ _ _ _⟩

theorem expectation (hd : d.TellsClaims) (expect : Option Expectation) (result : Option String) :
    ∀ line ∈ Emit.expectation d expect result, d.backend.claims line = true := by
  cases result with
  | none => rcases expect with _ | _ | _ <;> exact List.forall_mem_nil _
  | some ret =>
    rcases expect with _ | n | k
    · exact List.forall_mem_nil _
    · exact List.forall_mem_singleton.2 (hd.assertInt ret n)
    · exact List.forall_mem_singleton.2 (hd.assertKind ret k)

end Dialect.TellsClaims

/-! ## Writing a definition -/

/-- Since the state `b` a definition without parameters has been opened and has got the given lines,
and nothing has been finished. The listed names are reserved. -/
structure Drafting (b : Builder) (name : String) (lines names : List String) (t : Builder) :
    Prop where
  /-- Nothing has been finished. -/
  items : t.items = b.items
  /-- The program runs the same names. -/
  run : t.run = b.run
  /-- The open definition. -/
  current : t.current = some ⟨.method, name, [], none, lines⟩
  /-- The names that have been drawn. -/
  reserved : t.names.Reserves names

namespace Drafting

variable {b t : Builder} {name stem : String} {lines names : List String}
  {fails : CodeFault → Prop}

theorem fresh (h : Drafting b name lines names t) (hstem : IsStem stem) :
    Ends (Building.fresh stem) (fun x u => Drafting b name lines (x :: names) u) fails t :=
  ends_fresh.2 ⟨h.items, h.run, h.current, h.reserved.fresh hstem List.nodup_nil⟩

theorem emit (h : Drafting b name lines names t) (more : List String) :
    Ends (Building.emit more) (fun _ u => Drafting b name (lines ++ more) names u) fails t :=
  (ends_emit h.current).2 ⟨h.items, h.run, rfl, h.reserved⟩

theorem perm {other : List String} (h : Drafting b name lines names t)
    (hperm : other.Perm names) : Drafting b name lines other t :=
  { h with reserved := h.reserved.perm hperm }

end Drafting

namespace Emit

variable {d : Dialect} {terms : List Node} {b t : Builder} {name : String}
  {lines names : List String} {fails : CodeFault → Prop}

end Emit

end ProofScript
