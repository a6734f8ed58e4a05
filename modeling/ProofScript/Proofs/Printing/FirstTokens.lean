import ProofScript.Proofs.Printing.Places

/-!
# The first tokens of an expression

An expression does not start like the end of a list or a block, and an expression of the tightest
level does not start with a sign. A name at the start is not followed by a colon, so an argument is
never taken for a typed formal parameter.
-/

namespace ProofScript

open Grammar (Level)
open Token (Kind)

/-- Whether a token can be the first one of an expression. -/
def Token.Kind.isFirst : Kind → Bool
  | .number _ | .name _ | .keyword .new | .keyword .ifWord => true
  | .symbol s => s ∈ [.openParen, .less, .minus, .plus, .bang]
  | _ => false

/-- The tokens start like an expression of the level `l`. -/
structure Starts (l : Level) (ts : List Kind) : Prop where
  first : ∃ k, ts.head? = some k ∧ k.isFirst = true ∧
    (l = .postfixed → Grammar.prefixOperator? k = none)
  second : ts.tail.head? ≠ some (.symbol .colon)

namespace Starts

variable {l : Level} {k : Kind} {ts us : List Kind}

theorem append (h : Starts l ts) (hus : us.head? ≠ some (.symbol .colon)) :
    Starts l (ts ++ us) := by
  obtain ⟨⟨k, hk, hfirst⟩, hsecond⟩ := h
  cases ts with
  | nil => cases hk
  | cons k ts =>
    refine ⟨⟨_, rfl, Option.some.inj hk ▸ hfirst⟩, ?_⟩
    cases ts with
    | nil => exact hus
    | cons k ts => exact hsecond

/-- Only the tightest level asks for more. -/
theorem loosen {loose : Level} (h : Starts l ts) (hloose : loose ≠ .postfixed) :
    Starts loose ts := by
  obtain ⟨⟨k, hk, hfirst, -⟩, hsecond⟩ := h
  exact ⟨⟨k, hk, hfirst, fun h => absurd h hloose⟩, hsecond⟩

theorem cons (hk : k.isFirst = true) (hsign : l = .postfixed → Grammar.prefixOperator? k = none)
    (hts : ts.head? ≠ some (.symbol .colon)) : Starts l (k :: ts) :=
  ⟨⟨k, rfl, hk, hsign⟩, hts⟩

theorem head_ne (h : Starts l ts) (hk : k.isFirst = false) : ts.head? ≠ some k := by
  obtain ⟨⟨k', hk', hfirst, -⟩, -⟩ := h
  rw [hk']
  rintro heq
  rw [Option.some.inj heq, hk] at hfirst
  cases hfirst

/-- The start of an expression does not depend on what follows it. -/
theorem head_append (h : Starts l ts) : (ts ++ us).head? = ts.head? := by
  obtain ⟨⟨k, hk, -⟩, -⟩ := h
  rw [List.head?_append, hk]
  rfl

end Starts

namespace Expr

variable {e : Expr}

theorem bracketed_starts (h : ∀ d, Starts e.level (e.own d)) (l : Level) (d : Bool) :
    Starts l (e.bracketed e.own l d) := by
  unfold bracketed
  split
  · refine .cons rfl (fun _ => rfl) ?_
    show (own e true ++ [Kind.symbol .closeParen]).head? ≠ _
    rw [(h true).head_append]
    exact (h true).head_ne rfl
  · next hparens =>
    obtain ⟨⟨k, hk, hfirst, hsign⟩, hsecond⟩ := h d
    refine ⟨⟨k, hk, hfirst, fun hl => hsign ?_⟩, hsecond⟩
    have hrank := e.level.rank_le
    simp only [needsParens, Bool.or_eq_true, decide_eq_true_eq, hl, not_or] at hparens
    exact Level.eq_of_rank (by omega)

theorem own_starts : (e : Expr) → (d : Bool) → Starts e.level (e.own d)
  | .int n, d => by
    by_cases hn : n < 0
    · simp only [own, level, if_pos hn]
      exact .cons rfl (fun h => nomatch h) (by simp)
    · simp only [own, level, if_neg hn]
      exact .cons rfl (fun _ => rfl) (by simp)
  | .var _, _ => .cons rfl (fun _ => rfl) (by simp)
  | .tuple first rest, d => by
    have hfirst := bracketed_starts (own_starts first) .sum d
    refine .cons rfl (fun _ => rfl) ?_
    show (commas _ ++ [Kind.symbol .greater]).head? ≠ _
    rw [commas_cons, List.append_assoc, hfirst.head_append]
    exact hfirst.head_ne rfl
  | .field object _, d => (bracketed_starts (own_starts object) .postfixed d).append (by simp)
  | .element object _ _, d => by
    have hobject := bracketed_starts (own_starts object) .postfixed d
    simp only [own, List.append_assoc]
    exact hobject.append (by simp)
  | .item _ _, d => .cons rfl (fun _ => rfl) (by simp)
  | .call _ _, d => .cons rfl (fun _ => rfl) (by simp)
  | .invoke object _ _, d => by
    have hobject := bracketed_starts (own_starts object) .postfixed d
    simp only [own, List.append_assoc]
    exact hobject.append (by simp)
  | .unary op arg, d => by
    have harg := bracketed_starts (own_starts arg) .signed d
    have hop : (Kind.symbol op.symbol).isFirst = true := by cases op <;> rfl
    exact .cons hop (fun h => nomatch h) (harg.head_ne rfl)
  | .binary op left right, d => by
    have hleft := bracketed_starts (own_starts left) op.leftLevel d
    have hlevel : op.level ≠ .postfixed := by cases op <;> simp [BinaryOp.level]
    have hop : op.symbol ≠ .colon := by cases op <;> decide
    exact (hleft.append (by simp [hop])).loosen hlevel
  | .assign target value, d => by
    have htarget := bracketed_starts (own_starts target) .comparison d
    exact (htarget.append (by simp)).loosen (fun h => nomatch h)
  | .alloc _ _, d => .cons rfl (fun _ => rfl) (by simp)
  | .method _ _ _, d => .cons rfl (fun _ => rfl) (by simp)
  | .ite condition _ _, d => by
    have hcondition := bracketed_starts (own_starts condition) .logic false
    simp only [own, List.cons_append, List.append_assoc]
    refine .cons rfl (fun _ => rfl) ?_
    rw [hcondition.head_append]
    exact hcondition.head_ne rfl
  | .guarded condition _, d => by
    have hcondition := bracketed_starts (own_starts condition) .logic false
    simp only [own, List.cons_append]
    refine .cons rfl (fun _ => rfl) ?_
    rw [hcondition.head_append]
    exact hcondition.head_ne rfl

/-- The first tokens of an expression at any place. -/
theorem tokens_starts (e : Expr) (l : Level) (d : Bool) : Starts l (e.tokens l d) :=
  bracketed_starts e.own_starts l d

end Expr

end ProofScript
