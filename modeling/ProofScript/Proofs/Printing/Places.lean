import ProofScript.Proofs.Printing.Expr

/-!
# Places in an expression

Which token may stand behind an expression depends on the place: it must not continue the
expression. `Opens l d c n c'` says that the tokens between `c` and `c'` open an expression of the
level `l` whose tree so far is `n`; operators or accessors may follow and take `n` as their left
operand. What opens an expression of a tight level also opens one of a looser level
(`Opens.lift`).
-/

namespace ProofScript

open Token (Kind)

/-- The kinds of the tokens that are left. -/
def Cursor.kinds (c : Cursor) : List Kind := c.tokens.map Token.kind

namespace Cursor

variable {c : Cursor} {k : Kind} {ks : List Kind}

theorem kind?_of_kinds (h : c.kinds = k :: ks) : c.kind? = some k := by
  rw [kinds, List.map_eq_cons_iff] at h
  obtain ⟨t, ts, htokens, hkind, -⟩ := h
  rw [kind?, htokens, List.head?_cons, Option.map_some, hkind]

theorem kind?_eq (c : Cursor) : c.kind? = c.kinds.head? := by
  rw [kind?, kinds, List.head?_map]

theorem kinds_advance (h : c.kinds = k :: ks) : c.advance.kinds = ks := by
  rw [kinds, List.map_eq_cons_iff] at h
  obtain ⟨t, ts, htokens, -, hkinds⟩ := h
  rw [kinds, advance, htokens, List.tail_cons, hkinds]

theorem kinds_build {α : Type} (c : Cursor) (m : Numbering α) : (c.build m).2.kinds = c.kinds := rfl

theorem kinds_skipSemicolons (c : Cursor) :
    c.skipSemicolons.kinds = c.kinds.dropWhile (· == .symbol .semicolon) := by
  rw [kinds, skipSemicolons, kinds, List.dropWhile_map]
  rfl

end Cursor

namespace Grammar

variable {l tight loose : Level} {d : Bool} {c c' c'' : Cursor} {n m : Node} {k : Option Kind}

/-! ## What may follow -/

/-- Whether the next token does not continue an expression of the level `l`. -/
def Level.stops (l : Level) (k : Option Kind) : Bool :=
  match l with
  | .logic | .sum | .product => (k.bind l.operator?).isNone
  | .assignment => k != some (.symbol .assign)
  | .comparison => (k.bind comparison?).isNone
  | .signed => true
  | .postfixed =>
    k != some (.symbol .dot) && k != some (.symbol .openBracket) && k != some (.symbol .openParen)

/-- The next token may stand behind an expression at a place for the level `l`, where declarations
are allowed as `d` says. -/
structure Follows (l : Level) (d : Bool) (k : Option Kind) : Prop where
  /-- The token does not continue an operand. -/
  tighter : ∀ tight : Level, l.rank < tight.rank → tight.stops k = true
  /-- The token does not turn a name into a call. -/
  paren : k ≠ some (.symbol .openParen)
  /-- The token does not turn a call into a declaration. -/
  brace : d = true → k ≠ some (.symbol .openBrace)
  /-- The token does not continue a conditional. -/
  elseWord : k ≠ some (.keyword .elseWord)

/-- The levels, from the loosest to the tightest. -/
def Level.all : List Level :=
  [.logic, .assignment, .comparison, .sum, .product, .signed, .postfixed]

theorem Level.mem_all (l : Level) : l ∈ Level.all := by
  cases l <;> decide

instance : Decidable (Follows l d k) :=
  decidable_of_iff
    ((∀ tight ∈ Level.all, l.rank < tight.rank → tight.stops k = true) ∧
      k ≠ some (.symbol .openParen) ∧ (d = true → k ≠ some (.symbol .openBrace)) ∧
      k ≠ some (.keyword .elseWord))
    ⟨fun h => ⟨fun tight => h.1 tight tight.mem_all, h.2.1, h.2.2.1, h.2.2.2⟩,
      fun h => ⟨fun tight _ => h.tighter tight, h.paren, h.brace, h.elseWord⟩⟩

theorem Follows.mono (h : Follows loose d k) (hrank : loose.rank ≤ tight.rank) :
    Follows tight d k :=
  ⟨fun l hl => h.tighter l (Nat.lt_of_le_of_lt hrank hl), h.paren, h.brace, h.elseWord⟩

/-- A token ends every expression. -/
def Ending (k : Option Kind) : Prop :=
  k ∈ [some (.symbol .closeParen), some (.symbol .closeBracket), some (.symbol .closeBrace),
    some (.symbol .comma), some (.symbol .semicolon), some .eof]

theorem Ending.stops (h : Ending k) (l : Level) : l.stops k = true := by
  simp only [Ending, List.mem_cons, List.not_mem_nil, or_false] at h
  rcases h with rfl | rfl | rfl | rfl | rfl | rfl
  all_goals cases l <;> rfl

theorem Ending.follows (h : Ending k) (l : Level) (d : Bool) : Follows l d k := by
  refine ⟨fun tight _ => h.stops tight, ?_, fun _ => ?_, ?_⟩
  all_goals
    rintro rfl
    simp [Ending] at h

/-! ## Opening an expression -/

/-- How the operators or accessors of a level continue the tree `n` to the tree `m`. A level without
such a continuation ends at once. -/
def Continues (l : Level) (d : Bool) (n : Node) (c : Cursor) (m : Node) (c' : Cursor) : Prop :=
  match l with
  | .logic | .sum | .product => Reads (.operators l d n m) c c'
  | .assignment | .comparison | .signed => l.stops c.kind? = true ∧ m = n ∧ c' = c
  | .postfixed => Reads (.accessors n m) c c'

/-- The tokens between `c` and `c'` open an expression of the level `l` with the tree `n`. -/
def Opens (l : Level) (d : Bool) (c : Cursor) (n : Node) (c' : Cursor) : Prop :=
  ∀ m c'', Continues l d n c' m c'' → Reads (.level l d m) c c''

theorem continues_nothing (h : l.stops c.kind? = true) : Continues l d n c n c := by
  cases l with
  | logic | sum | product => exact .noOperator (Option.isNone_iff_eq_none.1 h)
  | assignment | comparison | signed => exact ⟨h, rfl, rfl⟩
  | postfixed =>
    simp only [Level.stops, Bool.and_eq_true, bne_iff_ne] at h
    exact .noAccessor h.1.1 h.1.2 fun hp => h.2 hp.1

theorem Opens.reads (h : Opens l d c n c') (hstop : l.stops c'.kind? = true) :
    Reads (.level l d n) c c' :=
  h n c' (continues_nothing hstop)

/-- A level that does not associate ends at once. -/
theorem opens_of_reads (hl : l.associates = false) (hpost : l ≠ .postfixed)
    (h : l.stops c'.kind? = true → Reads (.level l d n) c c') : Opens l d c n c' := by
  intro m c'' hm
  cases l with
  | logic | sum | product => cases hl
  | postfixed => exact absurd rfl hpost
  | assignment | comparison | signed =>
    obtain ⟨hstop, rfl, rfl⟩ := hm
    exact h hstop

/-- What opens an operand of a level opens an expression of the level. -/
theorem Opens.loosen (hl : l ≠ .postfixed) (h : Opens l.operand d c n c')
    (hstop : l.operand.stops c'.kind? = true)
    (hsign : l = .signed → c.kind?.bind prefixOperator? = none) : Opens l d c n c' := by
  have hoperand := h.reads hstop
  intro m c'' hm
  cases l with
  | logic | sum | product => exact .operands rfl hoperand hm
  | assignment =>
    obtain ⟨hassign, rfl, rfl⟩ := hm
    exact .unassigned hoperand (bne_iff_ne.1 hassign)
  | comparison =>
    obtain ⟨hcompare, rfl, rfl⟩ := hm
    exact .uncompared hoperand (Option.isNone_iff_eq_none.1 hcompare)
  | signed =>
    obtain ⟨-, rfl, rfl⟩ := hm
    exact .unsigned (hsign rfl) hoperand
  | postfixed => exact absurd rfl hl

theorem Level.rank_operand (hl : l ≠ .postfixed) : l.operand.rank = l.rank + 1 := by
  cases l with
  | postfixed => exact absurd rfl hl
  | _ => rfl

theorem Level.eq_of_rank (h : loose.rank = tight.rank) : loose = tight := by
  cases loose <;> cases tight <;> first | rfl | cases h

theorem Level.rank_le (l : Level) : l.rank ≤ Level.postfixed.rank := by
  cases l <;> decide

/-- What opens an expression of a tight level opens one of any looser level, when the next token
does not continue a level in between. -/
theorem Opens.lift (h : Opens tight d c n c') (hrank : loose.rank ≤ tight.rank)
    (hstop : ∀ l : Level, loose.rank < l.rank → l.stops c'.kind? = true)
    (hsign : tight = .postfixed → c.kind?.bind prefixOperator? = none) : Opens loose d c n c' := by
  -- The induction is on the number of levels in between.
  induction hk : tight.rank - loose.rank generalizing loose with
  | zero =>
    have hsame : loose = tight := Level.eq_of_rank (by omega)
    rwa [hsame]
  | succ between ih =>
    have hl : loose ≠ .postfixed := by
      rintro rfl
      have hmax := tight.rank_le
      omega
    have hnext := Level.rank_operand hl
    have hoperand : Opens loose.operand d c n c' :=
      ih (by omega) (fun l hl' => hstop l (by omega)) (by omega)
    refine hoperand.loosen hl (hstop _ (by omega)) ?_
    rintro rfl
    have hmax := tight.rank_le
    have hsigned : Level.postfixed.rank = Level.signed.rank + 1 := rfl
    exact hsign (Level.eq_of_rank (by omega))

/-- An operator and its right operand continue what has been opened. -/
theorem Opens.operator {left right : Node} {op : Symbol} {c₁ c₂ : Cursor}
    (hl : l.associates = true) (h : Opens l d c left c₁)
    (here : c₁.kind?.bind l.operator? = some op)
    (hright : Reads (.level l.operand d right) c₁.advance c₂) :
    Opens l d c (c₂.build (Numbering.binary op.spelling left right)).1
      (c₂.build (Numbering.binary op.spelling left right)).2 := by
  intro m c'' hm
  refine h m c'' ?_
  cases l with
  | logic | sum | product => exact .operator here hright hm
  | assignment | comparison | signed | postfixed => cases hl

/-- A comparison ends at once. -/
theorem Opens.compared {left right : Node} {op : Symbol} {c₁ c₂ : Cursor}
    (hleft : Reads (.level .sum d left) c c₁) (here : c₁.kind?.bind comparison? = some op)
    (hright : Reads (.level .sum d right) c₁.advance c₂) :
    Opens .comparison d c (c₂.build (Numbering.binary op.spelling left right)).1
      (c₂.build (Numbering.binary op.spelling left right)).2 :=
  opens_of_reads rfl (by decide) fun hstop =>
    .compared hleft here hright (Option.isNone_iff_eq_none.1 hstop)

section Accessors

variable {base : Node} {c₁ c₂ : Cursor}

/-- A field access continues what has been opened. -/
theorem Opens.field {text : String} (h : Opens .postfixed d c base c₁)
    (dot : c₁.kind? = some (.symbol .dot)) (name : c₁.advance.kind? = some (.name text)) :
    Opens .postfixed d c
      (c₁.advance.advance.build (Numbering.field base text c₁.advance.span)).1
      (c₁.advance.advance.build (Numbering.field base text c₁.advance.span)).2 :=
  fun _ _ hm => h _ _ (.field dot name hm)

/-- An index continues what has been opened. -/
theorem Opens.index {i : Node} {make : Numbering Node} (h : Opens .postfixed d c base c₁)
    (bracket : c₁.kind? = some (.symbol .openBracket))
    (inner : Reads (.level .logic true i) c₁.advance c₂)
    (close : c₂.kind? = some (.symbol .closeBracket))
    (allowed : Numbering.index base i c₂.span = .ok make) :
    Opens .postfixed d c (c₂.advance.build make).1 (c₂.advance.build make).2 :=
  fun _ _ hm => h _ _ (.index bracket inner close allowed hm)

/-- The arguments of a method continue what has been opened. -/
theorem Opens.memberCall {call : Node} {args : List Node} {close : Span}
    (h : Opens .postfixed d c base c₁) (paren : c₁.kind? = some (.symbol .openParen))
    (compound : base.tag = .compound) (inner : Reads (.arguments [] args close) c₁.advance c₂)
    (allowed : Numbering.memberCall base args close = .ok call) : Opens .postfixed d c call c₂ :=
  fun _ _ hm => h _ _ (.memberCall paren compound inner allowed hm)

end Accessors

end Grammar

end ProofScript
