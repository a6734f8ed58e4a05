import ProofScript.Proofs.Grammar.Soundness

/-!
# Derivations are accepted

A phrase that has a derivation is returned by its reader (`expr_of_reads`), whatever bound the
readers between brackets are built with. Together with soundness this makes the relation `Reads` and
the readers interchangeable, so what is built by derivation is what the grammar reads.
-/

namespace ProofScript

namespace Cursor

theorem symbol_of_kind {c : Cursor} {s : Symbol} (hk : c.kind? = some (.symbol s)) :
    c.symbol s = .ok ⟨c.span, c.advance, size_advance_lt hk⟩ := by
  rw [symbol, dif_pos hk]

theorem keyword_of_kind {c : Cursor} {k : Keyword} (hk : c.kind? = some (.keyword k)) :
    c.keyword k = .ok ⟨c.span, c.advance, size_advance_lt hk⟩ := by
  rw [keyword, dif_pos hk]

theorem name_of_kind {c : Cursor} {text : String} (hk : c.kind? = some (.name text)) :
    c.name = .ok ⟨(text, c.span), c.advance, size_advance_lt hk⟩ := by
  unfold name
  split
  · next text' hk' =>
    obtain rfl : text' = text := by simpa [hk] using hk'.symm
    rfl
  · next k hne hk' => exact absurd (hk ▸ hk').symm (by simpa using hne text)
  · next hk' => simp [hk] at hk'

/-- Building nodes leaves the tokens alone. -/
@[simp] theorem kind?_build {α : Type} (c : Cursor) (m : Numbering α) :
    (c.build m).2.kind? = c.kind? := rfl

end Cursor

namespace Grammar

/-- A reader succeeds with the value `v` and ends at `c'`. -/
def Returns {bound : Nat} {α : Type} (r : Except ParseError (Parsed bound α)) (v : α)
    (c' : Cursor) : Prop :=
  ∃ h : c'.size < bound, r = .ok ⟨v, c', h⟩

/-- The reader of a level. -/
def Level.reader {n : Nat} (l : Level) (readers : Readers n) (decls : Bool) : Operand n :=
  match l with
  | .logic => Grammar.logic readers decls
  | .assignment => Grammar.assignment readers decls
  | .comparison => Grammar.comparison readers decls
  | .sum => Grammar.sum readers decls
  | .product => Grammar.product readers decls
  | .signed => Grammar.signed readers decls
  | .postfixed => Grammar.postfixed readers decls

/-- A level that associates to the left reads its operands with the level below. -/
theorem Level.reader_eq_leftLevel {n : Nat} {l : Level} (hl : l.associates = true)
    (readers : Readers n) (decls : Bool) :
    l.reader readers decls = leftLevel l.operator? (l.operand.reader readers decls) := by
  cases l with
  | logic | sum | product => rfl
  | assignment | comparison | signed | postfixed => contradiction

/-- The reader of a phrase, started at `c`, returns what the phrase builds and ends at `c'`. -/
def Phrase.Returned : Phrase → Cursor → Cursor → Prop
  | .level l d n, c, c' =>
    ∀ N (h : c.size ≤ N), Returns (l.reader (readersBelow N) d c h) n c'
  | .operators l d left n, c, c' =>
    ∀ N (h : c.size < N),
      Returns (operatorsAfter l.operator? (l.operand.reader (readersBelow N) d) left c h) n c'
  | .accessors base n, c, c' =>
    ∀ N (h : c.size < N), Returns (Grammar.accessors (readersBelow N) base c h) n c'
  | .primary d n, c, c' =>
    ∀ N (h : c.size ≤ N), Returns (Grammar.primary (readersBelow N) d c h) n c'
  | .block n, c, c' => ∀ N (h : c.size ≤ N), Returns (Grammar.block (readersBelow N) c h) n c'
  | .statements before all close, c, c' =>
    ∀ N (h : c.size < N), Returns (Grammar.statements (readersBelow N) before c h) (all, close) c'
  | .argument n, c, c' => ∀ N (h : c.size < N), Returns (Grammar.argument (readersBelow N) c h) n c'
  | .arguments before all close, c, c' =>
    ∀ N (h : c.size < N), Returns (Grammar.arguments (readersBelow N) before c h) (all, close) c'
  | .components d before all close, c, c' =>
    ∀ N (h : c.size < N), Returns (Grammar.components (readersBelow N) d before c h) (all, close) c'
  | .initialValue place n, c, c' =>
    ∀ N (h : c.size < N), Returns (Grammar.initialValue (readersBelow N) c h place) n c'
  | .initialisers before all, c, c' =>
    ∀ N (h : c.size < N), Returns (Grammar.initialisers (readersBelow N) before c h) all c'
  | .otherwise positive n, c, c' =>
    ∀ N (h : c.size < N), Returns (Grammar.otherwise (readersBelow N) positive c h) n c'

variable {c c' c₁ : Cursor} {n : Node} {d : Bool}

/-- An expression between brackets is read with the next smaller bound. -/
theorem Phrase.Returned.expr (h : (Phrase.level .logic d n).Returned c c') {N : Nat}
    (hN : c.size < N) : Returns ((readersBelow N).expr d c hN) n c' := by
  cases N with
  | zero => exact absurd hN (Nat.not_lt_zero _)
  | succ N => exact h N (Nat.le_of_lt_succ hN)

/-- A component is read with the next smaller bound. -/
theorem Phrase.Returned.sum (h : (Phrase.level .sum d n).Returned c c') {N : Nat}
    (hN : c.size < N) : Returns ((readersBelow N).sum d c hN) n c' := by
  cases N with
  | zero => exact absurd hN (Nat.not_lt_zero _)
  | succ N => exact h N (Nat.le_of_lt_succ hN)

/-- A closing symbol goes with the expression in front of it. -/
theorem Phrase.Returned.closedExpr (h : (Phrase.level .logic true n).Returned c c₁) {close : Symbol}
    (hk : c₁.kind? = some (.symbol close)) {N : Nat} (hN : c.size < N) :
    Returns (Grammar.closedExpr (readersBelow N) close c hN) (n, c₁.span) c₁.advance := by
  obtain ⟨hs, hp⟩ := h.expr hN
  exact ⟨_, bind_of_ok hp (bind_of_ok (Cursor.symbol_of_kind hk) rfl)⟩

/-! ## Operators -/

theorem Returned.operands {l : Level} {left : Node} (hl : l.associates = true)
    (first : (Phrase.level l.operand d left).Returned c c₁)
    (rest : (Phrase.operators l d left n).Returned c₁ c') : (Phrase.level l d n).Returned c c' := by
  intro N h
  obtain ⟨hs, hp⟩ := first N h
  obtain ⟨hs', hq⟩ := rest N (Nat.lt_of_lt_of_le hs h)
  rw [Level.reader_eq_leftLevel hl]
  exact ⟨_, bind_of_ok hp (bind_of_ok hq rfl)⟩

theorem Returned.operator {l : Level} {left right : Node} {op : Symbol}
    (here : c.kind?.bind l.operator? = some op)
    (operand : (Phrase.level l.operand d right).Returned c.advance c₁)
    (rest : (Phrase.operators l d (c₁.build (Numbering.binary op.spelling left right)).1 n).Returned
      (c₁.build (Numbering.binary op.spelling left right)).2 c') :
    (Phrase.operators l d left n).Returned c c' := by
  intro N h
  have hl : c.advance.size ≤ N := Nat.le_trans c.size_advance_le (Nat.le_of_lt h)
  obtain ⟨hs, hp⟩ := operand N hl
  obtain ⟨hs', hq⟩ := rest N (Nat.lt_of_lt_of_le hs hl)
  rw [operatorsAfter]
  split
  · next hk => simp [here] at hk
  · next op' hk =>
    obtain rfl : op = op' := by simpa [here] using hk
    simp only [Parsed.build, hp, hq]
    exact ⟨_, rfl⟩

theorem Returned.noOperator {l : Level} {left : Node} (stop : c.kind?.bind l.operator? = none) :
    (Phrase.operators l d left left).Returned c c := by
  intro N h
  rw [operatorsAfter]
  split
  · exact ⟨_, rfl⟩
  · next op hk => simp [stop] at hk

theorem Returned.unassigned (target : (Phrase.level .comparison d n).Returned c c₁)
    (stop : c₁.kind? ≠ some (.symbol .assign)) : (Phrase.level .assignment d n).Returned c c₁ := by
  intro N h
  obtain ⟨hs, hp⟩ := target N h
  exact ⟨_, bind_of_ok hp (dif_neg stop)⟩

theorem Returned.assigned {target value : Node}
    (left : (Phrase.level .comparison d target).Returned c c₁)
    (assign : c₁.kind? = some (.symbol .assign)) (assignable : isAssignable target = true)
    (right : (Phrase.level .comparison d value).Returned c₁.advance c')
    (single : c'.kind? ≠ some (.symbol .assign)) :
    (Phrase.level .assignment d
        (c'.build (Numbering.node (target.span.join value.span) (.assign target value))).1).Returned
      c (c'.build (Numbering.node (target.span.join value.span) (.assign target value))).2 := by
  intro N h
  obtain ⟨hs, hp⟩ := left N h
  have hl : c₁.advance.size ≤ N :=
    Nat.le_trans c₁.size_advance_le (Nat.le_trans (Nat.le_of_lt hs) h)
  obtain ⟨hs', hq⟩ := right N hl
  have hat : ¬(c'.at? .assign = true) := by simpa [Cursor.at?] using single
  exact ⟨_, bind_of_ok hp ((dif_pos assign).trans ((if_pos assignable).trans
    (bind_of_ok hq (if_neg hat))))⟩

theorem Returned.uncompared (sum : (Phrase.level .sum d n).Returned c c₁)
    (stop : c₁.kind?.bind comparison? = none) : (Phrase.level .comparison d n).Returned c c₁ := by
  intro N h
  obtain ⟨hs, hp⟩ := sum N h
  refine ⟨hs, bind_of_ok hp ?_⟩
  dsimp only
  split
  · rfl
  · next op hk => simp [stop] at hk

theorem Returned.compared {left right : Node} {op : Symbol}
    (first : (Phrase.level .sum d left).Returned c c₁)
    (here : c₁.kind?.bind comparison? = some op)
    (second : (Phrase.level .sum d right).Returned c₁.advance c')
    (single : c'.kind?.bind comparison? = none) :
    (Phrase.level .comparison d (c'.build (Numbering.binary op.spelling left right)).1).Returned c
      (c'.build (Numbering.binary op.spelling left right)).2 := by
  intro N h
  obtain ⟨hs, hp⟩ := first N h
  have hl : c₁.advance.size ≤ N :=
    Nat.le_trans c₁.size_advance_le (Nat.le_trans (Nat.le_of_lt hs) h)
  obtain ⟨hs', hq⟩ := second N hl
  have hstop : ¬((c'.kind?.bind comparison?).isSome = true) := by simp [single]
  have hsize : c'.size < c.size := by
    have := c₁.size_advance_le
    omega
  refine ⟨hsize, bind_of_ok hp ?_⟩
  dsimp only
  split
  · next hk => simp [here] at hk
  · next op' hk =>
    obtain rfl : op = op' := by simpa [here] using hk
    exact bind_of_ok hq (if_neg hstop)

theorem Returned.unsigned (stop : c.kind?.bind prefixOperator? = none)
    (postfixed : (Phrase.level .postfixed d n).Returned c c₁) :
    (Phrase.level .signed d n).Returned c c₁ := by
  intro N h
  obtain ⟨hs, hp⟩ := postfixed N h
  refine ⟨hs, ?_⟩
  change Grammar.signed _ _ _ _ = _
  rw [Grammar.signed]
  split
  · exact hp
  · next op hk => simp [stop] at hk

theorem Returned.signed {arg : Node} {op : Symbol} (here : c.kind?.bind prefixOperator? = some op)
    (operand : (Phrase.level .signed d arg).Returned c.advance c₁) :
    (Phrase.level .signed d (c₁.build (Numbering.unary op c.span arg)).1).Returned c
      (c₁.build (Numbering.unary op c.span arg)).2 := by
  intro N h
  obtain ⟨hs, hp⟩ := operand N (Nat.le_trans c.size_advance_le h)
  change Returns (Grammar.signed _ _ _ _) _ _
  rw [Grammar.signed]
  split
  · next hk => simp [here] at hk
  · next op' hk =>
    obtain rfl : op = op' := by simpa [here] using hk
    change Grammar.signed _ _ _ _ = _ at hp
    simp only [hp]
    exact ⟨_, rfl⟩

/-! ## Accessors -/

theorem Returned.postfixed {base : Node} (primary : (Phrase.primary d base).Returned c c₁)
    (accessors : (Phrase.accessors base n).Returned c₁ c') :
    (Phrase.level .postfixed d n).Returned c c' := by
  intro N h
  obtain ⟨hs, hp⟩ := primary N h
  obtain ⟨hs', hq⟩ := accessors N (Nat.lt_of_lt_of_le hs h)
  exact ⟨_, bind_of_ok hp (bind_of_ok hq rfl)⟩

theorem Returned.noAccessor {base : Node} (dot : c.kind? ≠ some (.symbol .dot))
    (bracket : c.kind? ≠ some (.symbol .openBracket))
    (paren : ¬(c.kind? = some (.symbol .openParen) ∧ base.tag = .compound)) :
    (Phrase.accessors base base).Returned c c := by
  intro N h
  rw [Grammar.accessors, dif_neg dot, dif_neg bracket, dif_neg paren]
  exact ⟨_, rfl⟩

theorem Returned.field {base : Node} {text : String} (dot : c.kind? = some (.symbol .dot))
    (name : c.advance.kind? = some (.name text))
    (rest : (Phrase.accessors
        (c.advance.advance.build (Numbering.field base text c.advance.span)).1 n).Returned
      (c.advance.advance.build (Numbering.field base text c.advance.span)).2 c') :
    (Phrase.accessors base n).Returned c c' := by
  intro N h
  have hl : c.advance.advance.size < N :=
    Nat.lt_of_le_of_lt (Nat.le_trans c.advance.size_advance_le c.size_advance_le) h
  obtain ⟨hs', hq⟩ := rest N hl
  rw [Grammar.accessors, dif_pos dot]
  simp only [Cursor.name_of_kind name, Parsed.build, hq]
  exact ⟨_, rfl⟩

theorem Returned.index {base i : Node} {make : Numbering Node}
    (bracket : c.kind? = some (.symbol .openBracket))
    (inner : (Phrase.level .logic true i).Returned c.advance c₁)
    (close : c₁.kind? = some (.symbol .closeBracket))
    (allowed : Numbering.index base i c₁.span = .ok make)
    (rest : (Phrase.accessors (c₁.advance.build make).1 n).Returned (c₁.advance.build make).2 c') :
    (Phrase.accessors base n).Returned c c' := by
  intro N h
  have hl : c.advance.size < N := Nat.lt_of_le_of_lt c.size_advance_le h
  obtain ⟨hs, hp⟩ := inner.closedExpr close hl
  obtain ⟨hs', hq⟩ := rest N (Nat.lt_trans hs hl)
  have dot : c.kind? ≠ some (.symbol .dot) := by simp [bracket]
  rw [Grammar.accessors, dif_neg dot, dif_pos bracket]
  simp only [hp, allowed, Parsed.build, hq]
  exact ⟨_, rfl⟩

theorem Returned.memberCall {base call : Node} {args : List Node} {close : Span}
    (paren : c.kind? = some (.symbol .openParen)) (compound : base.tag = .compound)
    (inner : (Phrase.arguments [] args close).Returned c.advance c₁)
    (allowed : Numbering.memberCall base args close = .ok call)
    (rest : (Phrase.accessors call n).Returned c₁ c') :
    (Phrase.accessors base n).Returned c c' := by
  intro N h
  have hl : c.advance.size < N := Nat.lt_of_le_of_lt c.size_advance_le h
  obtain ⟨hs, hp⟩ := inner N hl
  obtain ⟨hs', hq⟩ := rest N (Nat.lt_trans hs hl)
  have dot : c.kind? ≠ some (.symbol .dot) := by simp [paren]
  have bracket : c.kind? ≠ some (.symbol .openBracket) := by simp [paren]
  rw [Grammar.accessors, dif_neg dot, dif_neg bracket, dif_pos ⟨paren, compound⟩]
  simp only [hp, allowed, hq]
  exact ⟨_, rfl⟩

/-! ## Lists between brackets -/

theorem Returned.endComponents {before : List Node} (angle : c.kind? = some (.symbol .greater)) :
    (Phrase.components d before before c.span).Returned c c.advance := by
  intro N h
  have comma : c.kind? ≠ some (.symbol .comma) := by simp [angle]
  rw [Grammar.components, dif_neg comma]
  exact ⟨_, bind_of_ok (Cursor.symbol_of_kind angle) rfl⟩

theorem Returned.component {before all : List Node} {item : Node} {close : Span}
    (comma : c.kind? = some (.symbol .comma))
    (one : (Phrase.level .sum d item).Returned c.advance c₁)
    (rest : (Phrase.components d (before ++ [item]) all close).Returned c₁ c') :
    (Phrase.components d before all close).Returned c c' := by
  intro N h
  have hl : c.advance.size < N := Nat.lt_of_le_of_lt c.size_advance_le h
  obtain ⟨hs, hp⟩ := one.sum hl
  obtain ⟨hs', hq⟩ := rest N (Nat.lt_trans hs hl)
  rw [Grammar.components, dif_pos comma]
  simp only [hp, hq]
  exact ⟨_, rfl⟩

theorem Returned.typedFormal {text : String} {t : Parsed c.advance.advance.size VarType}
    (name : c.kind? = some (.name text)) (colon : c.advance.kind? = some (.symbol .colon))
    (type : Grammar.type c.advance.advance = .ok t) :
    (Phrase.argument (t.rest.build (Numbering.node c.span (.var text (some t.value)))).1).Returned c
      (t.rest.build (Numbering.node c.span (.var text (some t.value)))).2 := by
  intro N h
  have htyped : atTypedFormal c = true := by simp [atTypedFormal, name, Cursor.at?, colon]
  rw [Grammar.argument, if_pos htyped]
  exact ⟨_, bind_of_ok (Cursor.name_of_kind name) (bind_of_ok (Cursor.symbol_of_kind colon)
    (bind_of_ok type rfl))⟩

theorem Returned.argument (untyped : atTypedFormal c = false)
    (expr : (Phrase.level .logic true n).Returned c c₁) : (Phrase.argument n).Returned c c₁ := by
  intro N h
  rw [Grammar.argument, if_neg (by simp [untyped])]
  exact expr.expr h

theorem Returned.endArguments {before : List Node} (paren : c.kind? = some (.symbol .closeParen)) :
    (Phrase.arguments before before c.span).Returned c c.advance := by
  intro N h
  rw [Grammar.arguments, dif_pos paren]
  exact ⟨_, rfl⟩

theorem Returned.lastArgument {before : List Node} {arg : Node}
    (open? : c.kind? ≠ some (.symbol .closeParen)) (one : (Phrase.argument arg).Returned c c₁)
    (paren : c₁.kind? = some (.symbol .closeParen)) :
    (Phrase.arguments before (before ++ [arg]) c₁.span).Returned c c₁.advance := by
  intro N h
  obtain ⟨hs, hp⟩ := one N h
  rw [Grammar.arguments, dif_neg open?]
  simp only [hp, dif_pos paren]
  exact ⟨_, rfl⟩

theorem Returned.nextArgument {before all : List Node} {arg : Node} {close : Span}
    (open? : c.kind? ≠ some (.symbol .closeParen)) (one : (Phrase.argument arg).Returned c c₁)
    (comma : c₁.kind? = some (.symbol .comma))
    (rest : (Phrase.arguments (before ++ [arg]) all close).Returned c₁.advance c') :
    (Phrase.arguments before all close).Returned c c' := by
  intro N h
  obtain ⟨hs, hp⟩ := one N h
  have paren : c₁.kind? ≠ some (.symbol .closeParen) := by rw [comma]; simp
  have hl := Nat.lt_of_le_of_lt c₁.size_advance_le (Nat.lt_trans hs h)
  obtain ⟨hs', hq⟩ := rest N hl
  rw [Grammar.arguments, dif_neg open?]
  simp only [hp, dif_neg paren, Cursor.symbol_of_kind comma, hq]
  exact ⟨_, rfl⟩

theorem Returned.endStatements {before : List Node}
    (brace : c.skipSemicolons.kind? = some (.symbol .closeBrace)) :
    (Phrase.statements before before c.skipSemicolons.span).Returned c
      c.skipSemicolons.advance := by
  intro N h
  rw [Grammar.statements, dif_pos brace]
  exact ⟨_, rfl⟩

theorem Returned.statement {before all : List Node} {item : Node} {close : Span}
    (open? : c.skipSemicolons.kind? ≠ some (.symbol .closeBrace))
    (one : (Phrase.level .logic true item).Returned c.skipSemicolons c₁)
    (rest : (Phrase.statements (before ++ [item]) all close).Returned c₁ c') :
    (Phrase.statements before all close).Returned c c' := by
  intro N h
  have hl : c.skipSemicolons.size < N := Nat.lt_of_le_of_lt c.size_skipSemicolons_le h
  obtain ⟨hs, hp⟩ := one.expr hl
  obtain ⟨hs', hq⟩ := rest N (Nat.lt_trans hs hl)
  rw [Grammar.statements, dif_neg open?]
  simp only [hp, hq]
  exact ⟨_, rfl⟩

theorem Returned.block {items : List Node} {close : Span}
    (brace : c.kind? = some (.symbol .openBrace))
    (inner : (Phrase.statements [] items close).Returned c.advance c₁) :
    (Phrase.block (c₁.build (Numbering.block (c.span.join close) items)).1).Returned c
      (c₁.build (Numbering.block (c.span.join close) items)).2 := by
  intro N h
  have hl : c.advance.size < N := Nat.lt_of_lt_of_le (Cursor.size_advance_lt brace) h
  obtain ⟨hs, hp⟩ := inner N hl
  exact ⟨_, bind_of_ok (Cursor.symbol_of_kind brace) (bind_of_ok hp rfl)⟩

theorem Returned.noValue {place : Span} (stop : c.kind? ≠ some (.symbol .assign)) :
    (Phrase.initialValue place (c.build (Numbering.nil place)).1).Returned c
      (c.build (Numbering.nil place)).2 := by
  intro N h
  rw [Grammar.initialValue, dif_neg stop]
  exact ⟨_, rfl⟩

theorem Returned.value {place : Span} (assign : c.kind? = some (.symbol .assign))
    (expr : (Phrase.level .logic true n).Returned c.advance c₁) :
    (Phrase.initialValue place n).Returned c c₁ := by
  intro N h
  have hl : c.advance.size < N := Nat.lt_of_le_of_lt c.size_advance_le h
  obtain ⟨hs, hp⟩ := expr.expr hl
  rw [Grammar.initialValue, dif_pos assign]
  exact ⟨_, bind_of_ok hp rfl⟩

theorem Returned.endInitialisers {before : List Node}
    (paren : c.kind? = some (.symbol .closeParen)) :
    (Phrase.initialisers before before).Returned c c.advance := by
  intro N h
  rw [Grammar.initialisers, dif_pos paren]
  exact ⟨_, rfl⟩

theorem Returned.lastInitialiser {before : List Node} {text : String} {value : Node}
    (name : c.kind? = some (.name text))
    (initial : (Phrase.initialValue c.span value).Returned c.advance c₁)
    (paren : c₁.kind? = some (.symbol .closeParen)) :
    (Phrase.initialisers before (before ++ [(c₁.build
        (Numbering.node (c.span.join value.span) (.init text value false))).1])).Returned c
      (c₁.build (Numbering.node (c.span.join value.span) (.init text value false))).2.advance := by
  intro N h
  have hl : c.advance.size < N := Nat.lt_of_le_of_lt c.size_advance_le h
  obtain ⟨hs, hp⟩ := initial N hl
  have open? : c.kind? ≠ some (.symbol .closeParen) := by simp [name]
  rw [Grammar.initialisers, dif_neg open?]
  simp only [Cursor.name_of_kind name, hp]
  exact ⟨_, dif_pos paren⟩

theorem Returned.nextInitialiser {before all : List Node} {text : String} {value : Node}
    (name : c.kind? = some (.name text))
    (initial : (Phrase.initialValue c.span value).Returned c.advance c₁)
    (comma : c₁.kind? = some (.symbol .comma))
    (rest : (Phrase.initialisers (before ++ [(c₁.build
        (Numbering.node (c.span.join value.span) (.init text value false))).1]) all).Returned
      (c₁.build (Numbering.node (c.span.join value.span) (.init text value false))).2.advance c') :
    (Phrase.initialisers before all).Returned c c' := by
  intro N h
  have hl : c.advance.size < N := Nat.lt_of_le_of_lt c.size_advance_le h
  obtain ⟨hs, hp⟩ := initial N hl
  have hr := Nat.lt_of_le_of_lt c₁.size_advance_le
    (Nat.lt_of_le_of_lt (Nat.le_of_lt_succ hs) hl)
  obtain ⟨hs', hq⟩ := rest N hr
  have open? : c.kind? ≠ some (.symbol .closeParen) := by simp [name]
  have hparen : c₁.kind? ≠ some (.symbol .closeParen) := by rw [comma]; simp
  rw [Grammar.initialisers, dif_neg open?]
  have hcomma : (c₁.build (Numbering.node (c.span.join value.span)
      (.init text value false))).2.kind? = some (.symbol .comma) := comma
  simp only [Cursor.name_of_kind name, hp, Parsed.build, Parsed.beforeOptional, Cursor.kind?_build,
    dif_neg hparen, Cursor.symbol_of_kind hcomma, hq]
  exact ⟨_, rfl⟩

theorem Returned.noOtherwise {positive : Node} (stop : c.kind? ≠ some (.keyword .elseWord)) :
    (Phrase.otherwise positive (c.build (Numbering.node positive.span .nop)).1).Returned c
      (c.build (Numbering.node positive.span .nop)).2 := by
  intro N h
  rw [Grammar.otherwise, dif_neg stop]
  exact ⟨_, rfl⟩

theorem Returned.otherwise {positive : Node} (word : c.kind? = some (.keyword .elseWord))
    (block : (Phrase.block n).Returned c.advance c₁) :
    (Phrase.otherwise positive n).Returned c c₁ := by
  intro N h
  have hl : c.advance.size < N := Nat.lt_of_le_of_lt c.size_advance_le h
  obtain ⟨hs, hp⟩ := block N (Nat.le_of_lt hl)
  rw [Grammar.otherwise, dif_pos word]
  exact ⟨_, bind_of_ok hp rfl⟩

/-! ## Primary expressions -/

theorem Returned.number {value : Int64} (literal : c.kind? = some (.number value)) :
    (Phrase.primary d
        (c.advance.build (Numbering.node c.span (.const (.int value)))).1).Returned c
      (c.advance.build (Numbering.node c.span (.const (.int value)))).2 := by
  intro N h
  unfold Grammar.primary
  split
  · next value' hk =>
    obtain rfl : value' = value := by simpa [literal] using hk.symm
    exact ⟨_, rfl⟩
  all_goals simp_all

theorem Returned.name {text : String} (name : c.kind? = some (.name text))
    (paren : c.advance.kind? ≠ some (.symbol .openParen)) :
    (Phrase.primary d (c.advance.build (Numbering.node c.span (.var text none))).1).Returned c
      (c.advance.build (Numbering.node c.span (.var text none))).2 := by
  intro N h
  have hat : ¬(c.advance.at? .openParen = true) := by simpa [Cursor.at?] using paren
  unfold Grammar.primary
  split
  · simp_all
  · next text' hk =>
    obtain rfl : text' = text := by simpa [name] using hk.symm
    exact ⟨_, if_neg hat⟩
  all_goals simp_all

/-- A name in front of a parenthesis is read as a call or as a method declaration. -/
theorem Returned.named {text : String} (name : c.kind? = some (.name text))
    (paren : c.advance.kind? = some (.symbol .openParen))
    (all : ∀ N (h : c.advance.size < N),
      Returns (callOrMethod (readersBelow N) d text c.span c.advance h) n c') :
    (Phrase.primary d n).Returned c c' := by
  intro N h
  have hat : c.advance.at? .openParen = true := by simpa [Cursor.at?] using paren
  unfold Grammar.primary
  split
  · simp_all
  · next text' hk =>
    obtain rfl : text' = text := by simpa [name] using hk.symm
    obtain ⟨hs, hp⟩ := all N (Cursor.size_advance_below h hk)
    exact ⟨_, (if_pos hat).trans (bind_of_ok hp rfl)⟩
  all_goals simp_all

theorem Returned.call {text : String} {args : List Node} {close : Span}
    (name : c.kind? = some (.name text)) (paren : c.advance.kind? = some (.symbol .openParen))
    (inner : (Phrase.arguments [] args close).Returned c.advance.advance c₁)
    (brace : ¬(d = true ∧ c₁.kind? = some (.symbol .openBrace))) :
    (Phrase.primary d (c₁.build (Numbering.call (c.span.join close) text args)).1).Returned c
      (c₁.build (Numbering.call (c.span.join close) text args)).2 := by
  refine Returned.named name paren fun N h => ?_
  have hl : c.advance.advance.size < N := Nat.lt_of_le_of_lt (Cursor.size_advance_le _) h
  have hbrace : ¬((d && c₁.at? .openBrace) = true) := by simpa [Cursor.at?] using brace
  obtain ⟨hs, hp⟩ := inner N hl
  exact ⟨_, bind_of_ok (Cursor.symbol_of_kind paren) (bind_of_ok hp (if_neg hbrace))⟩

theorem Returned.method {text : String} {args : List Node} {close : Span} {body : Node}
    (name : c.kind? = some (.name text)) (paren : c.advance.kind? = some (.symbol .openParen))
    (inner : (Phrase.arguments [] args close).Returned c.advance.advance c₁)
    (brace : c₁.kind? = some (.symbol .openBrace)) (formals : ∀ a ∈ args, a.tag = .var)
    (block : (Phrase.block body).Returned c₁ c') :
    (Phrase.primary true
        (c'.build (Numbering.node (c.span.join body.span) (.method text args body))).1).Returned c
      (c'.build (Numbering.node (c.span.join body.span) (.method text args body))).2 := by
  refine Returned.named name paren fun N h => ?_
  have hl : c.advance.advance.size < N := Nat.lt_of_le_of_lt (Cursor.size_advance_le _) h
  have hbrace : (true && c₁.at? .openBrace) = true := by simpa [Cursor.at?] using brace
  have hvars : args.find? (fun a => a.tag != .var) = none :=
    List.find?_eq_none.2 fun a ha => by simp [formals a ha]
  obtain ⟨hs, hp⟩ := inner N hl
  obtain ⟨hs', hq⟩ := block N (Nat.le_of_lt (Nat.lt_trans hs hl))
  have hall : c'.size < c.advance.size :=
    Nat.lt_trans hs' (Nat.lt_trans hs (Cursor.size_advance_lt paren))
  refine ⟨hall, bind_of_ok (Cursor.symbol_of_kind paren)
    (bind_of_ok hp ((if_pos hbrace).trans ?_))⟩
  simp only [hvars]
  exact bind_of_ok hq rfl

theorem Returned.allocation {fields : List Node} {body : Node} {c₁ : Cursor}
    (new : c.kind? = some (.keyword .new))
    (paren : c.advance.kind? = some (.symbol .openParen))
    (inner : (Phrase.initialisers [] fields).Returned c.advance.advance c₁)
    (block : (Phrase.block body).Returned c₁ c') :
    (Phrase.primary d
        (c'.build (Numbering.node (c.span.join body.span) (.new fields body))).1).Returned c
      (c'.build (Numbering.node (c.span.join body.span) (.new fields body))).2 := by
  intro N h
  have hl : c.advance.advance.size < N :=
    Nat.lt_of_lt_of_le (Nat.lt_trans (Cursor.size_advance_lt paren) (Cursor.size_advance_lt new)) h
  obtain ⟨hs, hp⟩ := inner N hl
  obtain ⟨hs', hq⟩ := block N (Nat.le_of_lt (Nat.lt_trans hs hl))
  unfold Grammar.primary
  split
  case h_3 =>
    exact ⟨_, bind_of_ok (Cursor.keyword_of_kind new) (bind_of_ok (Cursor.symbol_of_kind paren)
      (bind_of_ok hp (bind_of_ok hq rfl)))⟩
  all_goals simp_all

theorem Returned.conditional {condition positive negative : Node} {c₂ : Cursor}
    (word : c.kind? = some (.keyword .ifWord))
    (test : (Phrase.level .logic false condition).Returned c.advance c₁)
    (first : (Phrase.block positive).Returned c₁ c₂)
    (second : (Phrase.otherwise positive negative).Returned c₂ c') :
    (Phrase.primary d (c'.build (Numbering.node (c.span.join negative.span)
        (.ite condition positive negative))).1).Returned c
      (c'.build (Numbering.node (c.span.join negative.span)
        (.ite condition positive negative))).2 := by
  intro N h
  have hl : c.advance.size < N := Nat.lt_of_lt_of_le (Cursor.size_advance_lt word) h
  obtain ⟨hs, hp⟩ := test.expr hl
  obtain ⟨hs₁, hq⟩ := first N (Nat.le_of_lt (Nat.lt_trans hs hl))
  obtain ⟨hs₂, hr⟩ := second N (Nat.lt_trans hs₁ (Nat.lt_trans hs hl))
  unfold Grammar.primary
  split
  case h_4 =>
    exact ⟨_, bind_of_ok (Cursor.keyword_of_kind word)
      (bind_of_ok hp (bind_of_ok hq (bind_of_ok hr rfl)))⟩
  all_goals simp_all

theorem Returned.parenthesised (paren : c.kind? = some (.symbol .openParen))
    (inner : (Phrase.level .logic true n).Returned c.advance c₁)
    (close : c₁.kind? = some (.symbol .closeParen)) :
    (Phrase.primary d n).Returned c c₁.advance := by
  intro N h
  have hl := Cursor.size_advance_lt paren
  obtain ⟨hs, hp⟩ := inner.closedExpr close (Nat.lt_of_lt_of_le hl h)
  unfold Grammar.primary
  split
  case h_5 =>
    exact ⟨Nat.lt_trans hs hl, bind_of_ok (Cursor.symbol_of_kind paren) (bind_of_ok hp rfl)⟩
  all_goals simp_all

theorem Returned.tuple {first : Node} {items : List Node} {close : Span}
    (angle : c.kind? = some (.symbol .less))
    (inner : (Phrase.level .sum d first).Returned c.advance c₁)
    (rest : (Phrase.components d [first] items close).Returned c₁ c') :
    (Phrase.primary d (c'.build (Numbering.node (c.span.join close) (.tuple items))).1).Returned c
      (c'.build (Numbering.node (c.span.join close) (.tuple items))).2 := by
  intro N h
  have hl : c.advance.size < N := Nat.lt_of_lt_of_le (Cursor.size_advance_lt angle) h
  obtain ⟨hs, hp⟩ := inner.sum hl
  obtain ⟨hs', hq⟩ := rest N (Nat.lt_trans hs hl)
  unfold Grammar.primary
  split
  case h_6 =>
    exact ⟨_, bind_of_ok (Cursor.symbol_of_kind angle) (bind_of_ok hp (bind_of_ok hq rfl))⟩
  all_goals simp_all

/-! ## The whole grammar -/

/-- A phrase that has a derivation is returned by its reader. -/
theorem returned_of_reads {p : Phrase} {c c' : Cursor} (h : Reads p c c') : p.Returned c c' := by
  induction h with
  | operands hl _ _ first rest => exact Returned.operands hl first rest
  | noOperator stop => exact Returned.noOperator stop
  | operator here _ _ operand rest => exact Returned.operator here operand rest
  | unassigned _ stop target => exact Returned.unassigned target stop
  | assigned _ assign ok _ single left right => exact Returned.assigned left assign ok right single
  | uncompared _ stop sum => exact Returned.uncompared sum stop
  | compared _ here _ single first second => exact Returned.compared first here second single
  | unsigned stop _ postfixed => exact Returned.unsigned stop postfixed
  | signed here _ operand => exact Returned.signed here operand
  | postfixed _ _ primary accessors => exact Returned.postfixed primary accessors
  | noAccessor dot bracket paren => exact Returned.noAccessor dot bracket paren
  | field dot name _ rest => exact Returned.field dot name rest
  | index bracket _ close ok _ inner rest => exact Returned.index bracket inner close ok rest
  | memberCall paren compound _ ok _ inner rest =>
    exact Returned.memberCall paren compound inner ok rest
  | number literal => exact Returned.number literal
  | name name paren => exact Returned.name name paren
  | call name paren _ brace inner => exact Returned.call name paren inner brace
  | method name paren _ brace formals _ inner block =>
    exact Returned.method name paren inner brace formals block
  | allocation new paren _ _ inner block => exact Returned.allocation new paren inner block
  | conditional word _ _ _ test first second => exact Returned.conditional word test first second
  | parenthesised paren _ close inner => exact Returned.parenthesised paren inner close
  | tuple angle _ _ inner rest => exact Returned.tuple angle inner rest
  | endComponents angle => exact Returned.endComponents angle
  | component comma _ _ one rest => exact Returned.component comma one rest
  | typedFormal name colon type => exact Returned.typedFormal name colon type
  | argument untyped _ expr => exact Returned.argument untyped expr
  | endArguments paren => exact Returned.endArguments paren
  | lastArgument more _ paren one => exact Returned.lastArgument more one paren
  | nextArgument more _ comma _ one rest => exact Returned.nextArgument more one comma rest
  | endStatements brace => exact Returned.endStatements brace
  | statement more _ _ one rest => exact Returned.statement more one rest
  | block brace _ inner => exact Returned.block brace inner
  | noValue stop => exact Returned.noValue stop
  | value assign _ expr => exact Returned.value assign expr
  | endInitialisers paren => exact Returned.endInitialisers paren
  | lastInitialiser name _ paren initial => exact Returned.lastInitialiser name initial paren
  | nextInitialiser name _ comma _ initial rest =>
    exact Returned.nextInitialiser name initial comma rest
  | noOtherwise stop => exact Returned.noOtherwise stop
  | otherwise word _ block => exact Returned.otherwise word block

/-- An expression that has a derivation is read. -/
theorem expr_of_reads {c c' : Cursor} {d : Bool} {n : Node} (h : Reads (.level .logic d n) c c') :
    Returns (expr d c) n c' :=
  returned_of_reads h c.size (Nat.le_refl _)

end Grammar

end ProofScript
