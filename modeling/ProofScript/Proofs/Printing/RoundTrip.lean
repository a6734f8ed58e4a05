import ProofScript.Proofs.Printing.Blocks
import ProofScript.Proofs.Printing.Tokens

/-!
# Printed expressions are read back

The text of an expression is cut into its tokens, since all of them are plain, and the tokens are
read as the tree of the expression. Both go by induction on the expression, with its lists, field
initialisers and bodies.
-/

namespace ProofScript

open Grammar (Level)
open Token (Kind)

/-! ## Plain tokens -/

/-- All tokens are written in a way that can be cut off from a text. -/
def AllPlain (ts : List Kind) : Prop := ∀ k ∈ ts, k.isPlain = true

namespace AllPlain

variable {k : Kind} {ts us : List Kind}

theorem nil : AllPlain [] := fun _ hk => nomatch hk

theorem cons (hk : k.isPlain = true) (h : AllPlain ts) : AllPlain (k :: ts) :=
  List.forall_mem_cons.2 ⟨hk, h⟩

theorem append (h : AllPlain ts) (h' : AllPlain us) : AllPlain (ts ++ us) :=
  List.forall_mem_append.2 ⟨h, h'⟩

theorem separated {parts : List (List Kind)} (hk : k.isPlain = true)
    (h : ∀ part ∈ parts, AllPlain part) : AllPlain ([k].intercalate parts) := by
  cases parts with
  | nil => exact nil
  | cons part parts =>
    obtain ⟨hpart, hparts⟩ := List.forall_mem_cons.1 h
    rw [separated_cons]
    refine hpart.append fun k' hk' => ?_
    obtain ⟨next, hnext, hmem⟩ := List.mem_flatMap.1 hk'
    exact (hparts next hnext).cons hk k' hmem

theorem bracketed {e : Expr} (h : ∀ d, AllPlain (e.own d)) (l : Level) (d : Bool) :
    AllPlain (e.bracketed e.own l d) := by
  unfold Expr.bracketed
  split
  · exact .cons rfl ((h true).append (.cons rfl .nil))
  · exact h d

end AllPlain

/-- The opposite of a negative constant is a literal. -/
theorem neg_nonneg {n : Int64} (hn : n < 0) (hmin : n ≠ Int64.minValue) : 0 ≤ -n := by
  have hneg : n.toInt < 0 := Int64.lt_iff_toInt_lt.1 hn
  have hne : n.toInt ≠ -2 ^ 63 := fun h => hmin (Int64.toInt_inj.1 h)
  have hle : -2 ^ 63 ≤ n.toInt := n.minValue_le_toInt
  rw [Int64.le_iff_toInt_le, Int64.toInt_neg, Int.bmod_eq_of_le (by omega) (by omega)]
  show 0 ≤ -n.toInt
  omega

mutual

theorem VarType.tokens_plain : (t : VarType) → AllPlain t.tokens
  | .value => .cons rfl .nil
  | .tuple items =>
    .cons rfl ((AllPlain.separated rfl (VarType.parts_plain items)).append (.cons rfl .nil))

theorem VarType.parts_plain : (ts : List VarType) → ∀ part ∈ VarType.parts ts, AllPlain part
  | [] => fun _ h => nomatch h
  | t :: ts => List.forall_mem_cons.2 ⟨t.tokens_plain, VarType.parts_plain ts⟩

end

theorem Formal.tokens_plain {f : Formal} (hf : f.isValid = true) : AllPlain f.tokens := by
  obtain ⟨name, type⟩ := f
  rw [isValid, Bool.and_eq_true] at hf
  cases type with
  | none => exact .cons hf.1 .nil
  | some type => exact .cons hf.1 (.cons rfl type.tokens_plain)

mutual

theorem Expr.own_plain : (e : Expr) → e.isValid = true → ∀ d, AllPlain (e.own d)
  | .int n, h, d => by
    rw [Expr.isValid, bne_iff_ne] at h
    unfold Expr.own
    split
    · next hn => exact .cons rfl (.cons (decide_eq_true (neg_nonneg hn h)) .nil)
    · next hn => exact .cons (decide_eq_true (Int64.not_lt.1 hn)) .nil
  | .var name, h, d => .cons h .nil
  | .tuple first rest, h, d => by
    rw [Expr.isValid, Bool.and_eq_true] at h
    refine .cons rfl ((AllPlain.separated rfl ?_).append (.cons rfl .nil))
    exact List.forall_mem_cons.2
      ⟨.bracketed (first.own_plain h.1) _ _, Expr.parts_plain rest h.2 _ _⟩
  | .field object name, h, d => by
    rw [Expr.isValid, Bool.and_eq_true] at h
    exact (AllPlain.bracketed (object.own_plain h.1) _ _).append (.cons rfl (.cons h.2 .nil))
  | .element object name index, h, d => by
    simp only [Expr.isValid, Bool.and_eq_true] at h
    obtain ⟨⟨hobject, hname⟩, hindex⟩ := h
    have hdot : AllPlain [.symbol .dot, .name name, .symbol .openBracket] :=
      .cons rfl (.cons hname (.cons rfl .nil))
    exact (((AllPlain.bracketed (object.own_plain hobject) _ _).append hdot).append
      (.bracketed (index.own_plain hindex) _ _)).append (.cons rfl .nil)
  | .item name index, h, d => by
    rw [Expr.isValid, Bool.and_eq_true] at h
    have hname : AllPlain [.name name, .symbol .openBracket] := .cons h.1 (.cons rfl .nil)
    exact (hname.append (.bracketed (index.own_plain h.2) _ _)).append (.cons rfl .nil)
  | .call name args, h, d => by
    rw [Expr.isValid, Bool.and_eq_true] at h
    have hname : AllPlain [.name name, .symbol .openParen] := .cons h.1 (.cons rfl .nil)
    exact (hname.append (.separated rfl (Expr.parts_plain args h.2 _ _))).append (.cons rfl .nil)
  | .invoke object name args, h, d => by
    simp only [Expr.isValid, Bool.and_eq_true] at h
    obtain ⟨⟨hobject, hname⟩, hargs⟩ := h
    have hdot : AllPlain [.symbol .dot, .name name, .symbol .openParen] :=
      .cons rfl (.cons hname (.cons rfl .nil))
    exact (((AllPlain.bracketed (object.own_plain hobject) _ _).append hdot).append
      (.separated rfl (Expr.parts_plain args hargs _ _))).append (.cons rfl .nil)
  | .unary op arg, h, d => by
    rw [Expr.isValid, Bool.and_eq_true] at h
    exact .cons rfl (.bracketed (arg.own_plain h.2) _ _)
  | .binary op left right, h, d => by
    rw [Expr.isValid, Bool.and_eq_true] at h
    exact (AllPlain.bracketed (left.own_plain h.1) _ _).append
      (.cons rfl (.bracketed (right.own_plain h.2) _ _))
  | .assign target value, h, d => by
    simp only [Expr.isValid, Bool.and_eq_true] at h
    exact (AllPlain.bracketed (target.own_plain h.1.2) _ _).append
      (.cons rfl (.bracketed (value.own_plain h.2) _ _))
  | .alloc fields body, h, d => by
    rw [Expr.isValid, Bool.and_eq_true] at h
    have hnew : AllPlain [.keyword .new, .symbol .openParen] := .cons rfl (.cons rfl .nil)
    exact (hnew.append (.separated rfl (FieldInit.parts_plain fields h.1))).append
      (.cons rfl (body.tokens_plain h.2))
  | .method name formals body, h, d => by
    simp only [Expr.isValid, Bool.and_eq_true, List.all_eq_true] at h
    obtain ⟨⟨hname, hformals⟩, hbody⟩ := h
    have hparen : AllPlain [.name name, .symbol .openParen] := .cons hname (.cons rfl .nil)
    refine (hparen.append (.separated rfl ?_)).append (.cons rfl (body.tokens_plain hbody))
    exact List.forall_mem_map.2 fun f hf => Formal.tokens_plain (hformals f hf)
  | .ite condition positive negative, h, d => by
    simp only [Expr.isValid, Bool.and_eq_true] at h
    obtain ⟨⟨hcondition, hpositive⟩, hnegative⟩ := h
    exact ((AllPlain.cons rfl (.bracketed (condition.own_plain hcondition) _ _)).append
      (positive.tokens_plain hpositive)).append (.cons rfl (negative.tokens_plain hnegative))
  | .guarded condition body, h, d => by
    rw [Expr.isValid, Bool.and_eq_true] at h
    exact (AllPlain.cons rfl (.bracketed (condition.own_plain h.1) _ _)).append
      (body.tokens_plain h.2)

theorem Expr.parts_plain : (es : List Expr) → Expr.allValid es = true → ∀ l d,
    ∀ part ∈ Expr.parts l d es, AllPlain part
  | [], _, _, _ => fun _ h => nomatch h
  | e :: es, h, l, d => by
    rw [Expr.allValid, Bool.and_eq_true] at h
    exact List.forall_mem_cons.2
      ⟨.bracketed (e.own_plain h.1) _ _, Expr.parts_plain es h.2 l d⟩

theorem FieldInit.tokens_plain : (f : FieldInit) → f.isValid = true → AllPlain f.tokens
  | .plain name, h => .cons h .nil
  | .value name e, h => by
    rw [FieldInit.isValid, Bool.and_eq_true] at h
    exact .cons h.1 (.cons rfl (.bracketed (e.own_plain h.2) _ _))

theorem FieldInit.parts_plain : (fs : List FieldInit) → FieldInit.allValid fs = true →
    ∀ part ∈ FieldInit.parts fs, AllPlain part
  | [], _ => fun _ h => nomatch h
  | f :: fs, h => by
    rw [FieldInit.allValid, Bool.and_eq_true] at h
    exact List.forall_mem_cons.2 ⟨f.tokens_plain h.1, FieldInit.parts_plain fs h.2⟩

theorem Body.tokens_plain : (b : Body) → b.isValid = true → AllPlain b.tokens
  | .empty, _ => .cons rfl (.cons rfl .nil)
  | .statements first rest, h => by
    rw [Body.isValid, Bool.and_eq_true] at h
    refine .cons rfl ((AllPlain.separated rfl ?_).append (.cons rfl .nil))
    exact List.forall_mem_cons.2
      ⟨.bracketed (first.own_plain h.1) _ _, Expr.parts_plain rest h.2 _ _⟩

end

/-! ## Reading back -/

section Readable

open ProofScript.Expr

mutual

theorem Expr.readable : (e : Expr) → e.isValid = true → e.Readable
  | .int n, _ => (int_own n).readable
  | .var name, _ => (var_own name).readable
  | .tuple first rest, h => by
    rw [Expr.isValid, Bool.and_eq_true] at h
    exact (tuple_own (first.readable h.1) (Expr.allReadable rest h.2)).readable
  | .field object name, h => by
    rw [Expr.isValid, Bool.and_eq_true] at h
    exact (field_own (object.readable h.1) name).readable
  | .element object name index, h => by
    simp only [Expr.isValid, Bool.and_eq_true] at h
    exact (element_own (object.readable h.1.1) name (index.readable h.2)).readable
  | .item name index, h => by
    rw [Expr.isValid, Bool.and_eq_true] at h
    exact (item_own name (index.readable h.2)).readable
  | .call name args, h => by
    rw [Expr.isValid, Bool.and_eq_true] at h
    exact (call_own name (Expr.allReadable args h.2)).readable
  | .invoke object name args, h => by
    simp only [Expr.isValid, Bool.and_eq_true] at h
    exact (invoke_own (object.readable h.1.1) name (Expr.allReadable args h.2)).readable
  | .unary op arg, h => by
    rw [Expr.isValid, Bool.and_eq_true] at h
    exact (unary_own (arg.readable h.2) h.1).readable
  | .binary op left right, h => by
    rw [Expr.isValid, Bool.and_eq_true] at h
    exact (binary_own op (left.readable h.1) (right.readable h.2)).readable
  | .assign target value, h => by
    simp only [Expr.isValid, Bool.and_eq_true] at h
    exact (assign_own (target.readable h.1.2) (value.readable h.2) h.1.1).readable
  | .alloc fields body, h => by
    rw [Expr.isValid, Bool.and_eq_true] at h
    exact (alloc_own (FieldInit.allReadable fields h.1) (body.readable h.2)).readable
  | .method name formals body, h => by
    simp only [Expr.isValid, Bool.and_eq_true, List.all_eq_true] at h
    exact (method_own name h.1.2 (body.readable h.2)).readable
  | .ite condition positive negative, h => by
    simp only [Expr.isValid, Bool.and_eq_true] at h
    exact (ite_own (condition.readable h.1.1) (positive.readable h.1.2)
      (negative.readable h.2)).readable
  | .guarded condition body, h => by
    rw [Expr.isValid, Bool.and_eq_true] at h
    exact (guarded_own (condition.readable h.1) (body.readable h.2)).readable

theorem Expr.allReadable : (es : List Expr) → Expr.allValid es = true → ∀ e ∈ es, e.Readable
  | [], _ => fun _ h => nomatch h
  | e :: es, h => by
    rw [Expr.allValid, Bool.and_eq_true] at h
    exact List.forall_mem_cons.2 ⟨e.readable h.1, Expr.allReadable es h.2⟩

theorem FieldInit.readable : (f : FieldInit) → f.isValid = true → f.Readable
  | .plain name, _ => FieldInit.plain_readable name
  | .value name e, h => by
    rw [FieldInit.isValid, Bool.and_eq_true] at h
    exact FieldInit.value_readable name (e.readable h.2)

theorem FieldInit.allReadable : (fs : List FieldInit) → FieldInit.allValid fs = true →
    ∀ f ∈ fs, f.Readable
  | [], _ => fun _ h => nomatch h
  | f :: fs, h => by
    rw [FieldInit.allValid, Bool.and_eq_true] at h
    exact List.forall_mem_cons.2 ⟨f.readable h.1, FieldInit.allReadable fs h.2⟩

theorem Body.readable : (b : Body) → b.isValid = true → b.Readable
  | .empty, _ => Body.empty_readable
  | .statements first rest, h => by
    rw [Body.isValid, Bool.and_eq_true] at h
    exact Body.statements_readable
      (List.forall_mem_cons.2 ⟨first.readable h.1, Expr.allReadable rest h.2⟩)

end

end Readable

/-- The tokens of an expression are read as its tree. -/
theorem Expr.soleExpr_tokens {e : Expr} (h : e.isValid = true) {ts : List Token}
    (hts : ts.map Token.kind = e.tokens .logic true ++ [.eof]) :
    ∃ n, Grammar.soleExpr ts = .ok n ∧ n.bare = e.node := by
  have heof : Grammar.Ending (some Kind.eof) := by simp [Grammar.Ending]
  have hstart : (Cursor.start ts).kinds = e.tokens .logic true ++ .eof :: [] := hts
  obtain ⟨n, c, hn, hks, hreads⟩ := (e.readable h).closed heof hstart
  obtain ⟨hs, hexpr⟩ := Grammar.expr_of_reads hreads
  refine ⟨n, ?_, hn⟩
  exact bind_of_ok hexpr (if_pos (Cursor.kind?_of_kinds hks))

/-- The text of an expression is read as its tree. -/
theorem Expr.ofExpr_text {e : Expr} (h : e.isValid = true) :
    ∃ n, Node.ofExpr e.text = .ok n ∧ n.bare = e.node := by
  have hplain : AllPlain (e.tokens .logic true) := .bracketed (e.own_plain h) _ _
  obtain ⟨ts, hts, hkinds⟩ := Token.scan_spellings hplain
  obtain ⟨n, hread, hn⟩ := Expr.soleExpr_tokens h hkinds
  refine ⟨n, ?_, hn⟩
  rw [Node.ofExpr, Node.readWith, text, hts]
  simp only [hread]

/-- A declaration in a condition and a sum as an operand are put in parentheses. -/
theorem Expr.ofExpr_text_guarded :
    ∃ n, Node.ofExpr "if ( m ( x ) { x } ) { - ( a + 1 ) * - 2 ; y }" = .ok n ∧
      n.bare = (guarded (method "m" [⟨"x", none⟩] (.statements (var "x") []))
        (.statements (binary .star (unary .minus (binary .plus (var "a") (int 1))) (int (-2)))
          [var "y"])).node := by
  refine Exists.imp (fun n h => ⟨?_, h.2⟩) (Expr.ofExpr_text ?_)
  · rw [← h.1]
    exact congrArg Node.ofExpr (by decide +kernel)
  · decide +kernel

end ProofScript
