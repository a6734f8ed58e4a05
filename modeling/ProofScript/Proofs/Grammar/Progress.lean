import ProofScript.Proofs.Grammar.Retracing
import ProofScript.Proofs.Grammar.WellFormed

/-!
# Every routine ends and goes on

Recursive descent ends from every state, with a tree or with an error: in the middle of a token list
or behind it, with or without a token for the end of the text, and with either flag. The routines of
expressions track readers, which return (`tracks_expr`). The routines of scripts are the loops over
the arrows of a chain and over the items; each turn uses up a token, so the number of tokens that
are left bounds the number of turns.

Started at the first token with declarations allowed, the routines of scripts and of single
expressions return what the grammar does.
-/

namespace ProofScript.Grammar.Descent

variable {tokens : List Token} {α β : Type} {n k : Nat} {c : Cursor} {d : Bool}

/-! ## What is used up -/

/-- The procedure `m` ends, and when it succeeds fewer than `n` tokens are left. -/
def Below (tokens : List Token) (m : Procedure α) (c : Cursor) (d : Bool) (n : Nat) : Prop :=
  Halts tokens m c d fun out c' => ∀ a, out = .ok a → c'.size < n

section Below

variable {m : Procedure α} {f : α → Procedure β}

/-- What ends has added no tokens. -/
theorem Halts.below {Q : Except ParseError α → Cursor → Prop} (h : Halts tokens m c d Q) :
    Below tokens m c d (c.size + 1) := by
  intro s hs
  obtain ⟨path, out, s', hm, honward, -⟩ := h s hs
  refine ⟨path, out, s', hm, honward, fun _ _ => ?_⟩
  have hsize := State.size_cursor hs.position_le
  have hsize' := State.size_cursor honward.position_le_length
  have hle := honward.ascends.position_le
  rw [hs.cursor] at hsize
  omega

/-- What tracks a reading uses up what the reading does. -/
theorem Tracks.below {x : Except ParseError (Parsed n α)} (h : Tracks tokens m c d x) :
    Below tokens m c d n := by
  refine Halts.mono h ?_
  rintro _ _ ⟨p⟩ a ⟨⟩
  exact p.shorter

theorem Below.mono (h : Below tokens m c d n) (hle : n ≤ k) : Below tokens m c d k :=
  Halts.mono h fun _ _ hsize a ha => Nat.lt_of_lt_of_le (hsize a ha) hle

theorem Below.bind (h : Below tokens m c d n)
    (hf : ∀ a c', c'.size < n → Below tokens (f a) c' d k) : Below tokens (m >>= f) c d k := by
  refine Halts.bind h (fun a c' hsize => hf a c' (hsize a rfl)) ?_
  rintro _ _ - _ ⟨⟩

theorem below_pure {a : α} : Below tokens (pure a) c d (c.size + 1) :=
  .pure fun _ _ => c.size_lt_succ

theorem below_throw {e : ParseError} : Below tokens (.throw e : Procedure α) c d n :=
  .throw fun _ h => nomatch h

theorem below_unexpected {wanted : Wanted} :
    Below tokens (unexpected tokens wanted : Procedure α) c d n :=
  halts_unexpected fun _ h => nomatch h

theorem below_build {m : Numbering α} : Below tokens (build m) c d (c.size + 1) :=
  (steps_build m).below

end Below

/-! ## Proof chains and items -/

theorem below_expr : Below tokens (run (.level .logic)) c d c.size := tracks_expr.below

theorem tracks_hint : Tracks tokens (run .hint) c d ( annotation c) := by
  refine Halts.of_body ?_
  rw [body]
  unfold annotation
  refine steps_kind?.bind ?_
  split
  · rename_i ho
    refine (steps_next ho).bind (tracks_expr.within.bind fun hint _ => ?_)
    refine (tracks_symbol .closeBracket).bind fun close _ => ?_
    exact steps_verbatim.bind tracks_pure
  · exact tracks_pure

theorem below_arrows {chain : Chain} :
    Below tokens (run (.arrows chain)) c d (c.size + 1) := by
  induction hsize : c.size using Nat.strongRecOn generalizing c chain with
  | ind size ih =>
    refine Halts.of_body ?_
    rw [body]
    refine steps_kind?.bind ?_
    split
    · rename_i ht
      have hlt := Cursor.size_advance_lt ht
      refine (steps_next ht).bind (tracks_hint.below.bind fun note c₁ h₁ => ?_)
      refine below_expr.bind fun term c₂ h₂ => ?_
      exact (ih c₂.size (by omega) rfl).mono (by omega)
    · exact hsize ▸ below_pure

theorem below_chain {first : Node} :
    Below tokens (run (.chain first)) c d (c.size + 1) := by
  refine Halts.of_body ?_
  rw [body]
  exact below_arrows.bind fun chain c₁ h₁ => below_build.mono (by omega)

theorem below_item : Below tokens (run .item) c d c.size := by
  refine Halts.of_body ?_
  rw [body]
  refine steps_kind?.bind ?_
  split
  · rename_i ha
    have hlt := Cursor.size_advance_lt ha
    refine (steps_anyToken ha).bind (below_expr.bind fun condition c₁ h₁ => ?_)
    exact below_build.mono (by omega)
  refine steps_kind?.bind ?_
  split
  · rename_i ha
    have hlt := Cursor.size_advance_lt ha
    refine (steps_anyToken ha).bind (below_expr.bind fun first c₁ h₁ => steps_kind?.bind ?_)
    split
    · refine below_chain.bind fun chain c₂ h₂ => ?_
      split
      · exact below_build.mono (by omega)
      · exact below_throw
    · exact below_unexpected
  · refine below_expr.bind fun first c₁ h₁ => steps_kind?.bind ?_
    split
    · exact below_chain.mono (by omega)
    · exact below_pure.mono (by omega)

theorem below_items {before : List Node} :
    Below tokens (run (.items before)) c d (c.size + 1) := by
  induction hsize : c.size using Nat.strongRecOn generalizing c before with
  | ind size ih =>
    have hle := Cursor.size_skipSemicolons_le c
    refine Halts.of_body ?_
    rw [body]
    refine steps_semicolons.bind (steps_kind?.bind ?_)
    split
    · exact below_pure.mono (by omega)
    · exact below_pure.mono (by omega)
    · exact below_item.bind fun item c₁ h₁ => (ih c₁.size (by omega) rfl).mono (by omega)

theorem below_script : Below tokens (run .script) c d (c.size + 1) := by
  refine Halts.of_body ?_
  rw [body]
  refine (steps_placeOr _).bind (below_items.bind fun items c₁ h₁ => ?_)
  exact below_build.mono (by omega)

theorem below_soleExpr : Below tokens (run .soleExpr) c d c.size := by
  refine Halts.of_body ?_
  rw [body]
  refine below_expr.bind fun n c₁ h₁ => steps_kind?.bind ?_
  split
  · exact below_pure.mono (by omega)
  · exact below_unexpected

/-! ## Every routine -/

/-- Whatever the flag is, the routine of expressions tracks some reader. -/
theorem exists_exprTracked (tokens : List Token) (n : Nat) (d : Bool) :
    ∃ readers : Readers n, Readers.ExprTracked tokens d readers :=
  ⟨{ readersBelow n with expr := fun _ => (readersBelow n).expr d },
    fun _ h => (tracked_readersBelow n).expr h⟩

/-- Whether a routine that returns the value has used up a token. A list of arguments has when it is
not the one that the routine has started with. What is optional, and what goes on from something
that has been read, need not have. -/
def Routine.Uses {α : Type} : Routine α → α → Prop
  | .within _ r, a => r.Uses a
  | .arguments args, a => a ≠ args
  | .type, _ | .level _, _ | .primary, _ | .callOrMethod _ _, _ | .argument, _ | .allocation, _
  | .conditional, _ | .tuple, _ | .block, _ | .item, _ | .soleExpr, _ => True
  | .semicolons, _ | .types _, _ | .operators _ _, _ | .accessors _, _ | .initialisers _, _
  | .initialValue _, _ | .otherwise _, _ | .components _, _ | .statements _, _ | .hint, _
  | .arrows _, _ | .chain _, _ | .items _, _ | .script, _ => False

/-- The procedure `m` ends, and it uses up a token when its value is one of `uses`. -/
def Progresses (tokens : List Token) (m : Procedure α) (c : Cursor) (d : Bool) (uses : α → Prop) :
    Prop :=
  Halts tokens m c d fun out c' => ∀ a, out = .ok a → uses a → c'.size < c.size

section Progresses

variable {m : Procedure α} {uses : α → Prop}

theorem Below.progresses (h : Below tokens m c d c.size) : Progresses tokens m c d uses :=
  Halts.mono h fun _ _ hsize a ha _ => hsize a ha

/-- What ends progresses when no value stands for tokens. -/
theorem Halts.progresses {Q : Except ParseError α → Cursor → Prop} (h : Halts tokens m c d Q) :
    Progresses tokens m c d fun _ => False :=
  h.mono fun _ _ _ _ _ hfalse => hfalse.elim

end Progresses

theorem below_argument : Below tokens (run .argument) c d c.size := by
  obtain ⟨readers, he⟩ := exists_exprTracked tokens (c.size + 1) d
  exact (tracks_argument he (h := c.size_lt_succ)).below

theorem below_arguments {args : List Node} :
    Below tokens (run (.arguments args)) c d (c.size + 1) := by
  obtain ⟨readers, he⟩ := exists_exprTracked tokens (c.size + 1) d
  exact (halts_arguments he (h := c.size_lt_succ)).below

theorem below_separator : Below tokens (separator tokens) c d (c.size + 1) := by
  refine steps_kind?.bind ?_
  split
  · exact below_pure
  · exact (tracks_symbol .comma).below.bind fun _ c₁ h₁ => below_pure.mono (by omega)

/-- A list of arguments that has become longer has used up a token. -/
theorem progresses_arguments {args : List Node} :
    Progresses tokens (run (.arguments args)) c d (· ≠ args) := by
  by_cases hclose : c.kind? = some (.symbol .closeParen)
  · refine (steps_arguments hclose).mono ?_
    rintro _ _ ⟨rfl, -⟩ a ⟨⟩ hne
    exact absurd rfl hne
  · have hturn : Below tokens (run (.arguments args)) c d c.size := by
      refine halts_arguments_turn hclose (below_argument.bind fun arg c₁ h₁ => ?_)
      refine below_separator.bind fun _ c₂ h₂ => ?_
      exact below_arguments.mono (by omega)
    exact hturn.progresses

/-- Every routine ends, and uses up a token where its value stands for some. -/
theorem progresses_run {α : Type} (r : Routine α) (c : Cursor) (d : Bool) :
    Progresses tokens (run r) c d r.Uses := by
  have hr (n : Nat) : Readers.Tracked tokens (readersBelow n) := tracked_readersBelow n
  induction r generalizing c d with
  | within decls r ih => exact (ih c decls).within
  | semicolons => exact steps_semicolons.progresses
  | type => exact tracks_type.below.progresses
  | types items =>
    exact (tracks_typesAfter (tracks_typeBelow _) (Nat.le_refl _)
      (h := c.size_lt_succ)).progresses
  | level l => exact (tracks_level (hr c.size) l (Nat.le_refl _)).below.progresses
  | operators l left =>
    exact (tracks_operatorsAfter (tracks_level (hr _) l.operand)
      (h := c.size_lt_succ)).progresses
  | accessors base => exact (tracks_accessors (hr _).expr (h := c.size_lt_succ)).progresses
  | primary => exact (tracks_primary (hr _) (h := Nat.le_refl _)).below.progresses
  | callOrMethod name place =>
    exact (tracks_callOrMethod (hr _).expr (h := c.size_lt_succ)).below.progresses
  | arguments args => exact progresses_arguments
  | argument => exact below_argument.progresses
  | allocation => exact (tracks_allocation (hr _).expr (h := Nat.le_refl _)).below.progresses
  | initialisers fields => exact (halts_initialisers (hr _).expr (h := c.size_lt_succ)).progresses
  | initialValue place => exact (tracks_initialValue (hr _).expr (h := c.size_lt_succ)).progresses
  | conditional => exact (tracks_conditional (hr _) (h := Nat.le_refl _)).below.progresses
  | otherwise positive => exact (tracks_otherwise (hr _).expr (h := c.size_lt_succ)).progresses
  | tuple => exact (tracks_tuple (hr _) (h := Nat.le_refl _)).below.progresses
  | components items => exact (halts_components (hr _) (h := c.size_lt_succ)).progresses
  | block => exact (tracks_block (hr _).expr (h := Nat.le_refl _)).below.progresses
  | statements items =>
    obtain ⟨readers, he⟩ := exists_exprTracked tokens (c.size + 1) d
    exact (halts_statements he (h := c.size_lt_succ)).progresses
  | hint => exact tracks_hint.progresses
  | arrows chain => exact Halts.progresses below_arrows
  | chain first => exact Halts.progresses below_chain
  | item => exact below_item.progresses
  | items before => exact Halts.progresses below_items
  | script => exact Halts.progresses below_script
  | soleExpr => exact below_soleExpr.progresses

/-! ## Scripts -/

/-- One turn of the loop over the arrows of a chain. -/
theorem halts_arrows_turn {chain : Chain} {Q : Except ParseError Chain → Cursor → Prop}
    (ht : c.kind? = some (.symbol .tilde))
    (h : Halts tokens (do
        let note ← run .hint
        let term ← run (.level .logic)
        run (.arrows { terms := chain.terms ++ [term], hints := chain.hints ++ [note.1],
                       verbatims := chain.verbatims ++ [note.2],
                       span := chain.span.join term.span })) c.advance d Q) :
    Halts tokens (run (.arrows chain)) c d Q := by
  refine Halts.of_body ?_
  rw [body]
  exact halts_if_pos ht ((steps_next ht).bind h)

theorem tracks_arrows {chain : Chain} :
    Tracks tokens (run (.arrows chain)) c true (arrows chain c) := by
  fun_induction arrows chain c with
  | case1 chain c ht _ e he => exact halts_arrows_turn ht (tracks_hint.fails he (.error e))
  | case2 chain c ht _ note hnote _ e he =>
    refine halts_arrows_turn ht (tracks_hint.then hnote ?_)
    exact tracks_expr.fails he (.error e)
  | case3 chain c ht _ note hnote _ term hterm _ e he ih =>
    refine halts_arrows_turn ht (tracks_hint.then hnote ?_)
    exact tracks_expr.then hterm (ih.error he)
  | case4 chain c ht _ note hnote _ term hterm _ all hall _ ih =>
    refine halts_arrows_turn ht (tracks_hint.then hnote ?_)
    exact tracks_expr.then hterm (ih.ok hall)
  | case5 chain c ht =>
    refine Halts.of_body ?_
    rw [body]
    exact halts_if_neg ht tracks_pure

theorem tracks_chain {first : Node} :
    Tracks tokens (run (.chain first)) c true (chainFrom first c) := by
  refine Halts.of_body ?_
  rw [body]
  exact tracks_arrows.bind fun chain _ => tracks_build

theorem tracks_item : Tracks tokens (run .item) c true (item c) := by
  refine Halts.of_body ?_
  rw [body]
  unfold item
  refine steps_kind?.bind ?_
  split
  · rename_i ha
    refine (steps_anyToken ha).bind
      (Tracks.relay (x := assertion c.span c.advance) ?_ fun all _ => tracks_pure)
    exact tracks_expr.bind fun condition _ => tracks_build
  refine steps_kind?.bind ?_
  split
  · rename_i ha
    refine (steps_anyToken ha).bind
      (Tracks.relay (x := assumption c.span c.advance) ?_ fun all _ => tracks_pure)
    unfold assumption
    refine tracks_expr.bind fun first _ => steps_kind?.bind ?_
    simp only [Cursor.at?, beq_iff_eq]
    split
    · refine tracks_chain.bind fun chain _ => ?_
      split
      · exact tracks_build
      · exact tracks_throw
    · exact tracks_unexpected _
  · unfold statementOrChain
    refine tracks_expr.bind fun first _ => steps_kind?.bind ?_
    simp only [Cursor.at?, beq_iff_eq]
    split
    · exact tracks_chain.relay fun chain _ => tracks_pure
    · exact tracks_pure

/-- An outcome is what has been gathered before and what a list of items says. -/
inductive Gathers (before : List Node) :
    Except ParseError (List Node × Cursor) → Except ParseError (List Node) → Cursor → Prop where
  /-- The items that follow, and the cursor behind them. -/
  | ok (rest : List Node) (c : Cursor) : Gathers before (.ok (rest, c)) (.ok (before ++ rest)) c
  /-- An error. -/
  | error (e : ParseError) (c : Cursor) : Gathers before (.error e) (.error e) c

/-- One turn of the loop over the items. -/
theorem halts_items_turn {before : List Node} {kind : Token.Kind}
    {Q : Except ParseError (List Node) → Cursor → Prop} (hk : c.skipSemicolons.kind? = some kind)
    (hne : kind ≠ .eof)
    (h : Halts tokens (do
        let item ← run .item
        run (.items (before ++ [item]))) c.skipSemicolons d Q) :
    Halts tokens (run (.items before)) c d Q := by
  refine Halts.of_body ?_
  rw [body]
  refine steps_semicolons.bind (steps_kind?.bind ?_)
  rw [hk]
  cases kind with
  | eof => exact absurd rfl hne
  | keyword | symbol | name | number | verbatim => exact h

theorem halts_items {before : List Node} :
    Halts tokens (run (.items before)) c true (Gathers before (items c)) := by
  fun_induction items c generalizing before with
  | case1 c _ hk =>
    refine Halts.of_body ?_
    rw [body]
    refine steps_semicolons.bind (steps_kind?.bind ?_)
    rw [hk]
    exact .pure (by simpa using @Gathers.ok before [] c.skipSemicolons)
  | case2 c _ hk =>
    refine Halts.of_body ?_
    rw [body]
    refine steps_semicolons.bind (steps_kind?.bind ?_)
    rw [hk]
    exact .pure (by simpa using @Gathers.ok before [] c.skipSemicolons)
  | case3 c _ kind hne hk e he => exact halts_items_turn hk hne (tracks_item.fails he (.error e))
  | case4 c _ kind hne hk first hfirst _ e he ih =>
    refine halts_items_turn hk hne (tracks_item.then hfirst (ih.mono ?_))
    rw [he]
    rintro _ _ ⟨⟩
    exact .error e _
  | case5 c _ kind hne hk first hfirst _ rest c' hrest ih =>
    refine halts_items_turn hk hne (tracks_item.then hfirst (ih.mono ?_))
    rw [hrest]
    rintro _ _ ⟨⟩
    simpa using @Gathers.ok before (first.value :: rest) c'

/-! ## Whole texts -/

theorem at_start (tokens : List Token) : State.start.At tokens (Cursor.start tokens) true :=
  ⟨rfl, Nat.zero_le _, rfl⟩

/-- The place of the first token is where a script starts, and without tokens it starts nowhere. -/
theorem placeOr_start (tokens : List Token) :
    ((Cursor.start tokens).tokens.head?.map Token.span).getD Span.none =
      (Cursor.start tokens).span := by
  cases tokens <;> rfl

theorem halts_script :
    Halts tokens (run .script) (Cursor.start tokens) true fun out _ => out = script tokens := by
  have hitems : Halts tokens (run (.items [])) (Cursor.start tokens) true
      (Gathers [] (items (Cursor.start tokens))) := halts_items
  refine Halts.of_body ?_
  rw [body]
  refine (steps_placeOr _).bind ?_
  rw [placeOr_start]
  cases hx : items (Cursor.start tokens) with
  | error e =>
    rw [hx] at hitems
    refine hitems.bind ?_ ?_
    · rintro _ _ ⟨⟩
    · rintro _ _ ⟨⟩
      simp only [script, hx]
      rfl
  | ok p =>
    rw [hx] at hitems
    refine hitems.bind ?_ ?_
    · rintro _ c₁ ⟨list⟩
      refine (steps_build _).mono ?_
      rintro _ _ ⟨rfl, -⟩
      simp only [script, hx]
      rfl
    · rintro _ _ ⟨⟩

theorem halts_soleExpr :
    Halts tokens (run .soleExpr) (Cursor.start tokens) true
      fun out _ => out = soleExpr tokens := by
  have hexpr : Tracks tokens (run (.level .logic)) (Cursor.start tokens) true
      (expr true (Cursor.start tokens)) := tracks_expr
  refine Halts.of_body ?_
  rw [body]
  unfold soleExpr
  cases hx : expr true (Cursor.start tokens) with
  | error e => exact hexpr.fails hx fun _ => rfl
  | ok p =>
    refine hexpr.then hx (steps_kind?.bind ?_)
    split
    · rename_i heof
      exact .pure (if_pos heof).symm
    · rename_i hne
      exact halts_unexpected (if_neg hne).symm

/-! ## Termination and progress -/

/-- A procedure that ends has the outcome that it is known to have. -/
theorem Halts.of_evaluates {m : Procedure α} {Q : Except ParseError α → Cursor → Prop}
    {out : Except ParseError α} {s s' : State} {path : List State} (h : Halts tokens m c d Q)
    (hs : s.At tokens c d) (hm : Evaluates tokens m s path out s') :
    s.Onward tokens path s' ∧ Q out (s'.cursor tokens) := by
  obtain ⟨path₁, out₁, s₁, hm₁, honward, hq⟩ := h s hs
  obtain ⟨rfl, rfl, rfl⟩ := hm₁.unique hm
  exact ⟨honward, hq⟩

/-- In every token list, whether or not it has a token for the end of the text, and from every state
in it, with either flag, every routine ends with a value or with an error. On the way the position
never goes back and is never beyond the list, at the end the flag is what it was, and a routine
whose value stands for tokens has used up at least one. The routine of expressions does what the
reader of expressions with the same flag says, and from the start of the list the routines of
scripts and of single expressions return what the grammar does. -/
theorem run_terminates (tokens : List Token) :
    (∀ {α : Type} (r : Routine α) (s : State), s.position ≤ tokens.length →
      (∃ path out s', Evaluates tokens (run r) s path out s') ∧
      ∀ path out s', Evaluates tokens (run r) s path out s' →
        ((s :: path ++ [s']).Pairwise fun t u => t.position ≤ u.position) ∧
        (∀ t ∈ path ++ [s'], t.position ≤ tokens.length) ∧ s'.decls = s.decls ∧
        ∀ a, out = .ok a → r.Uses a → s.position < s'.position) ∧
    (∀ s : State, s.position ≤ tokens.length → ∀ path out s',
      Evaluates tokens (run (.level .logic)) s path out s' →
        Matches (expr s.decls (s.cursor tokens)) out (s'.cursor tokens)) ∧
    (∀ path out s', Evaluates tokens (run .script) State.start path out s' →
      out = script tokens) ∧
    ∀ path out s', Evaluates tokens (run .soleExpr) State.start path out s' →
      out = soleExpr tokens := by
  refine ⟨fun r s hs => ⟨?_, fun path out s' hm => ?_⟩, fun s hs path out s' hm => ?_,
    fun path out s' hm => ?_, fun path out s' hm => ?_⟩
  · obtain ⟨path, out, s', hm, -⟩ := progresses_run r _ _ s (State.at_cursor hs)
    exact ⟨path, out, s', hm⟩
  · obtain ⟨honward, huses⟩ := (progresses_run r _ _).of_evaluates (State.at_cursor hs) hm
    refine ⟨honward.ascends, honward.inside, honward.decls, fun a ha hused => ?_⟩
    have hsize := State.size_cursor hs
    have hsize' := State.size_cursor honward.position_le_length
    have hlt := huses a ha hused
    omega
  · exact (tracks_expr.of_evaluates (State.at_cursor hs) hm).2
  · exact (halts_script.of_evaluates (at_start tokens) hm).2
  · exact (halts_soleExpr.of_evaluates (at_start tokens) hm).2

/-- A type without anything behind it, read where declarations are not allowed. -/
theorem run_terminates_star :
    let tokens : List Token := [⟨.symbol .star, ⟨0, 1⟩⟩]
    let s : State := { position := 0, nextId := 7, decls := false }
    let s' : State := { position := 1, nextId := 7, decls := false }
    s.position ≤ tokens.length ∧
      Evaluates tokens (run .type) s [s, s, s'] (.ok .value) s' ∧
      ([s, s, s, s', s'].Pairwise fun t u => t.position ≤ u.position) ∧
      (∀ t ∈ [s, s, s', s'], t.position ≤ tokens.length) ∧ s'.decls = s.decls ∧
      ∀ a, (.ok .value : Except ParseError VarType) = .ok a → Routine.type.Uses a →
        s.position < s'.position := by
  intro tokens s s'
  have hs : s.position ≤ tokens.length := by decide
  have hrun : Evaluates tokens (run .type) s [s, s, s'] (.ok .value) s' :=
    evaluates_run.2 (.step (.step (.step (.pure _ _))))
  exact ⟨hs, hrun, ((run_terminates tokens).1 .type s hs).2 _ _ _ hrun⟩

end ProofScript.Grammar.Descent
