import ProofScript.Proofs.Node.Everywhere
import ProofScript.Proofs.Printing.FirstTokens

/-!
# Printed operators

Every form of expression without a list in it can be read back when its parts can. What is read is a
tree with identities and places, which are forgotten when it is compared with the tree that was
printed.
-/

namespace ProofScript

open Grammar (Level Reads Follows Opens)
open Token (Kind)

/-! ## Trees without identities and places -/

namespace Node

theorem bare_mk (id : NodeId) (span : Span) (s : Shape Node) :
    (mk id span s).bare = detached (s.map bare) := fold_mk _ _ _ _

theorem bare_build (c : Cursor) (span : Span) (s : Shape Node) :
    (c.build (Numbering.node span s)).1.bare = detached (s.map bare) := bare_mk _ _ _

theorem bare_call (c : Cursor) (span : Span) (name : String) (args : List Node) :
    (c.build (Numbering.call span name args)).1.bare =
      detached (.call nil name (args.map bare)) := by
  have h : (c.build (Numbering.call span name args)).1 = mk (.numbered (c.nextId + 1)) span
      (.call (mk (.numbered c.nextId) span (.const .nil)) name args) := rfl
  rw [h, bare_mk, Shape.map, bare_mk]
  rfl

theorem shape_bare (n : Node) : n.bare.shape = n.shape.map bare := by
  cases n with
  | mk id span s => rw [bare_mk]; rfl

theorem tag_bare (n : Node) : n.bare.tag = n.tag := by
  rw [tag, shape_bare, Shape.tag_map, tag]

end Node

namespace Expr

variable {e : Expr} {l : Level} {d : Bool} {c : Cursor} {ks : List Kind}

/-! ## Reading at a place -/

/-- The tokens at `c` open an expression of the level `l` with the tree of `e`, and then `ks` are
left. -/
def OpensAt (e : Expr) (l : Level) (d : Bool) (c : Cursor) (ks : List Kind) : Prop :=
  ∃ n c', n.bare = e.node ∧ c'.kinds = ks ∧ Opens l d c n c'

theorem OpensAt.of_opens {n : Node} {c' : Cursor} (h : Opens l d c n c') (hn : n.bare = e.node)
    (hks : c'.kinds = ks) : e.OpensAt l d c ks :=
  ⟨n, c', hn, hks, h⟩

/-- An expression that is printed at any place opens an expression there. -/
def Readable (e : Expr) : Prop :=
  ∀ ⦃l : Level⦄ ⦃d : Bool⦄ ⦃c : Cursor⦄ ⦃ks : List Kind⦄, c.kinds = e.tokens l d ++ ks →
    Follows l d ks.head? → e.OpensAt l d c ks

/-- An expression that is printed without parentheses opens an expression of its own level. -/
def OwnReadable (e : Expr) : Prop :=
  ∀ ⦃d : Bool⦄ ⦃c : Cursor⦄ ⦃ks : List Kind⦄, (e.isMethod = true → d = true) →
    c.kinds = e.own d ++ ks → Follows e.level d ks.head? → e.OpensAt e.level d c ks

/-- A printed expression is read when what follows does not continue it. -/
theorem Readable.reads (h : e.Readable) (hc : c.kinds = e.tokens l d ++ ks)
    (hf : Follows l d ks.head?) (hstop : l.stops ks.head? = true) :
    ∃ n c', n.bare = e.node ∧ c'.kinds = ks ∧ Reads (.level l d n) c c' := by
  obtain ⟨n, c', hn, hks, hopens⟩ := h hc hf
  exact ⟨n, c', hn, hks, hopens.reads (by rwa [c'.kind?_eq, hks])⟩

/-- A printed expression is read in front of a token that ends it. -/
theorem Readable.closed (h : e.Readable) {k : Kind} (hk : Grammar.Ending (some k))
    (hc : c.kinds = e.tokens l d ++ k :: ks) :
    ∃ n c', n.bare = e.node ∧ c'.kinds = k :: ks ∧ Reads (.level l d n) c c' :=
  h.reads hc (hk.follows l d) (hk.stops l)

theorem OpensAt.lift {tight loose : Level} (h : e.OpensAt tight d c ks)
    (hrank : loose.rank ≤ tight.rank) (hf : Follows loose d ks.head?)
    (hsign : tight = .postfixed → c.kind?.bind Grammar.prefixOperator? = none) :
    e.OpensAt loose d c ks := by
  obtain ⟨n, c', hn, hks, hopens⟩ := h
  refine ⟨n, c', hn, hks, hopens.lift hrank (fun l hl => ?_) hsign⟩
  rw [c'.kind?_eq, hks]
  exact hf.tighter l hl

/-- Parentheses around an expression that can be read. -/
theorem OwnReadable.parenthesised (h : e.OwnReadable)
    (hc : c.kinds = .symbol .openParen :: e.own true ++ .symbol .closeParen :: ks) :
    e.OpensAt .postfixed d c ks := by
  have hclose : Grammar.Ending (some (Kind.symbol .closeParen)) := by simp [Grammar.Ending]
  have hinner : c.advance.kinds = e.own true ++ .symbol .closeParen :: ks := Cursor.kinds_advance hc
  have hown := h (fun _ => rfl) hinner (hclose.follows _ _)
  have hstart : e.level = .postfixed → c.advance.kind?.bind Grammar.prefixOperator? = none := by
    intro hl
    obtain ⟨⟨k, hk, -, hsign⟩, -⟩ := e.own_starts true
    rw [c.advance.kind?_eq, hinner, List.head?_append, hk]
    exact hsign hl
  obtain ⟨n, c', hn, hks, hopens⟩ :=
    hown.lift (Nat.zero_le _) (hclose.follows .logic true) hstart
  have hreads := hopens.reads (by rw [c'.kind?_eq, hks]; exact hclose.stops _)
  refine ⟨n, c'.advance, hn, Cursor.kinds_advance hks, fun m c'' hm => ?_⟩
  exact .postfixed (.parenthesised (Cursor.kind?_of_kinds hc) hreads (Cursor.kind?_of_kinds hks)) hm

/-- An expression that can be read without parentheses can be read at any place. -/
theorem OwnReadable.readable (h : e.OwnReadable) : e.Readable := by
  intro l d c ks hc hf
  unfold tokens bracketed at hc
  split at hc
  -- Between parentheses the place does not matter; without them the level is tight enough for it.
  · rw [List.append_assoc] at hc
    refine (h.parenthesised hc).lift l.rank_le hf fun _ => ?_
    rw [Cursor.kind?_of_kinds hc]
    rfl
  · next hparens =>
    simp only [needsParens, Bool.or_eq_true, decide_eq_true_eq, Bool.and_eq_true,
      Bool.not_eq_true', not_or, not_and, Bool.not_eq_false, Nat.not_lt] at hparens
    obtain ⟨hrank, hmethod⟩ := hparens
    refine (h hmethod hc (hf.mono hrank)).lift hrank hf fun hl => ?_
    obtain ⟨⟨k, hk, -, hsign⟩, -⟩ := e.own_starts d
    rw [c.kind?_eq, hc, List.head?_append, hk]
    exact hsign hl

/-! ## Constants and names -/

/-- A literal opens an expression. -/
theorem opens_number {value : Int64} (h : c.kind? = some (.number value)) :
    Opens .postfixed d c (c.advance.build (Numbering.node c.span (.const (.int value)))).1
      (c.advance.build (Numbering.node c.span (.const (.int value)))).2 :=
  fun _ _ hm => .postfixed (.number h) hm

theorem int_own (n : Int64) : (int n).OwnReadable := by
  intro d c ks _ hc hf
  by_cases hn : n < 0
  -- A negative constant is a sign and a literal, and no tighter than any other signed expression.
  · simp only [own, level, if_pos hn] at hc hf ⊢
    have hrest := Cursor.kinds_advance hc
    have hliteral := Cursor.kind?_of_kinds hrest
    have hks : c.advance.advance.kinds = ks := Cursor.kinds_advance hrest
    have hreads := (opens_number (d := d) hliteral).reads (by
      rw [Cursor.kind?_eq, Cursor.kinds_build, hks]
      exact hf.tighter .postfixed (by decide))
    have hnumber : c.advance.kind?.bind Grammar.prefixOperator? = none := by
      rw [hliteral]
      rfl
    have hsign : c.kind?.bind Grammar.prefixOperator? = some .minus := by
      rw [Cursor.kind?_of_kinds hc]
      rfl
    have hsigned := Reads.signed hsign (.unsigned hnumber hreads)
    have hopens := Grammar.opens_of_reads rfl (by decide) fun _ => hsigned
    -- The sign becomes part of the literal behind it.
    refine .of_opens hopens ?_ hks
    refine (Node.bare_mk _ _ _).trans ?_
    rw [node, Int64.neg_neg]
    rfl
  · simp only [own, level, if_neg hn] at hc hf ⊢
    have hopens := opens_number (d := d) (Cursor.kind?_of_kinds hc)
    exact .of_opens hopens (Node.bare_build _ _ _) (Cursor.kinds_advance hc)

theorem var_own (name : String) : (var name).OwnReadable := by
  intro d c ks _ hc hf
  have hrest : c.advance.kinds = ks := Cursor.kinds_advance hc
  have hparen : c.advance.kind? ≠ some (.symbol .openParen) := by
    rw [c.advance.kind?_eq, hrest]
    exact hf.paren
  have hopens : Opens .postfixed d c _ _ := fun _ _ hm =>
    .postfixed (.name (Cursor.kind?_of_kinds hc) hparen) hm
  exact .of_opens hopens (Node.bare_build _ _ _) hrest

/-! ## Operators -/

/-- The operator ends its left operand. -/
theorem follows_binary (op : BinaryOp) (d : Bool) :
    Follows op.leftLevel d (some (.symbol op.symbol)) := by
  cases op <;> cases d <;> decide

theorem binary_own (op : BinaryOp) {left right : Expr} (hl : left.Readable) (hr : right.Readable) :
    (binary op left right).OwnReadable := by
  intro d c ks _ hc hf
  simp only [own, List.append_assoc, List.cons_append] at hc
  have hrank : op.level.operand.rank = op.level.rank + 1 :=
    Level.rank_operand (by cases op <;> decide)
  obtain ⟨n₁, c₁, hn₁, hks₁, hopens₁⟩ := hl hc (follows_binary op d)
  obtain ⟨n₂, c₂, hn₂, hks₂, hreads₂⟩ := hr.reads (l := op.level.operand)
    (Cursor.kinds_advance hks₁) (hf.mono (show op.level.rank ≤ _ by omega))
    (hf.tighter _ (show op.level.rank < _ by omega))
  have hop := Cursor.kind?_of_kinds hks₁
  have hopens : Opens op.level d c (c₂.build (Numbering.binary op.symbol.spelling n₁ n₂)).1
      (c₂.build (Numbering.binary op.symbol.spelling n₁ n₂)).2 := by
    by_cases hassociates : op.level.associates = true
    · rw [BinaryOp.leftLevel, if_pos hassociates] at hopens₁
      refine hopens₁.operator hassociates ?_ hreads₂
      rw [hop]
      cases op <;> first | rfl | cases hassociates
    · have hcomparison : op.level = .comparison := by
        cases op <;> first | rfl | exact absurd rfl hassociates
      rw [BinaryOp.leftLevel, if_neg hassociates, hcomparison] at hopens₁
      rw [hcomparison] at hreads₂ ⊢
      have hreads₁ := hopens₁.reads (by
        rw [hop]
        cases op <;> first | rfl | exact absurd rfl hassociates)
      refine .compared hreads₁ ?_ hreads₂
      rw [hop]
      cases op <;> first | rfl | exact absurd rfl hassociates
  refine .of_opens hopens ?_ hks₂
  refine (Node.bare_call _ _ _ _).trans ?_
  simp only [List.map_cons, List.map_nil, hn₁, hn₂]
  rfl

/-- Only an integer constant has the tree of one. -/
theorem eq_int_of_node {v : Value} (h : e.node.shape = .const v) : ∃ n, e = int n := by
  cases e with
  | int n => exact ⟨n, rfl⟩
  | _ => cases h

/-- An operator that applies becomes a call. -/
theorem bare_unary {op : UnaryOp} {n : Node} (happlies : op.applies e = true)
    (hn : n.bare = e.node) (c : Cursor) (span : Span) :
    (c.build (Numbering.unary op.symbol span n)).1.bare = (unary op e).node := by
  have hconst : ∀ k, n.shape = .const (.int k) → op = .bang := by
    intro k hk
    have hshape : e.node.shape = .const (.int k) := by rw [← hn, Node.shape_bare, hk, Shape.map]
    obtain ⟨k, rfl⟩ := eq_int_of_node hshape
    simpa [UnaryOp.applies] using happlies
  unfold Numbering.unary
  split
  · next hop hshape =>
    rw [hconst _ hshape] at hop
    cases hop
  · next hop hshape =>
    rw [hconst _ hshape] at hop
    cases hop
  · rw [Node.bare_call, List.map_singleton, hn]
    rfl

theorem unary_own {op : UnaryOp} {arg : Expr} (ha : arg.Readable)
    (happlies : op.applies arg = true) : (unary op arg).OwnReadable := by
  intro d c ks _ hc hf
  have hop : c.kind?.bind Grammar.prefixOperator? = some op.symbol := by
    rw [Cursor.kind?_of_kinds hc]
    cases op <;> rfl
  obtain ⟨n, c', hn, hks, hreads⟩ := ha.reads (Cursor.kinds_advance hc) hf rfl
  have hopens := Grammar.opens_of_reads rfl (by decide) fun _ => Reads.signed hop hreads
  exact .of_opens hopens (bare_unary happlies hn _ _) hks

/-- A tree of a place can be assigned. -/
theorem isAssignable_of_isPlace {n : Node} (h : e.isPlace = true) (hn : n.bare = e.node) :
    Grammar.isAssignable n = true := by
  have htag := congrArg Node.tag hn
  rw [Node.tag_bare] at htag
  rw [Grammar.isAssignable, htag]
  cases e with
  | var | field | element | item => rfl
  | _ => cases h

theorem assign_own {target value : Expr} (ht : target.Readable) (hv : value.Readable)
    (hplace : target.isPlace = true) : (assign target value).OwnReadable := by
  intro d c ks _ hc hf
  simp only [own, List.append_assoc, List.cons_append] at hc
  have hassign : Follows .comparison d (some (.symbol .assign)) := by
    cases d <;> decide
  obtain ⟨n₁, c₁, hn₁, hks₁, hreads₁⟩ := ht.reads hc hassign rfl
  have hstop : Level.comparison.stops ks.head? = true :=
    hf.tighter .comparison (show Level.assignment.rank < _ by decide)
  obtain ⟨n₂, c₂, hn₂, hks₂, hreads₂⟩ :=
    hv.reads (Cursor.kinds_advance hks₁)
      (hf.mono (show Level.assignment.rank ≤ _ by decide)) hstop
  have hassigned := fun hsingle => Reads.assigned hreads₁ (Cursor.kind?_of_kinds hks₁)
    (isAssignable_of_isPlace hplace hn₁) hreads₂ hsingle
  have hopens := Grammar.opens_of_reads rfl (by decide) fun hsingle =>
    hassigned (bne_iff_ne.1 hsingle)
  refine .of_opens hopens ?_ hks₂
  rw [Node.bare_build, Shape.map, hn₁, hn₂]
  rfl

/-! ## Accessors -/

theorem follows_dot (d : Bool) : Follows .postfixed d (some (.symbol .dot)) := by
  cases d <;> decide

/-- A field of an expression is opened as an access without an index. -/
theorem opens_field {object : Expr} {name : String} (ho : object.Readable)
    (hc : c.kinds = object.tokens .postfixed d ++ .symbol .dot :: .name name :: ks) :
    ∃ n id place old c', n.bare = object.node ∧ old.isNil = true ∧ old.bare = Node.nil ∧
      c'.kinds = ks ∧ Opens .postfixed d c (Node.mk id place (.compound n name old)) c' := by
  obtain ⟨n, c₁, hn, hks, hopens⟩ := ho hc (follows_dot d)
  have hname := Cursor.kinds_advance hks
  have hfield := hopens.field (Cursor.kind?_of_kinds hks) (Cursor.kind?_of_kinds hname)
  refine ⟨n, _, _, _, _, hn, ?_, ?_, ?_, hfield⟩
  · rfl
  · exact Node.bare_mk _ _ _
  · exact Cursor.kinds_advance hname

theorem field_own {object : Expr} (ho : object.Readable) (name : String) :
    (field object name).OwnReadable := by
  intro d c ks _ hc hf
  simp only [own, List.append_assoc] at hc
  obtain ⟨n, id, place, old, c', hn, -, hold, hks, hopens⟩ := opens_field ho hc
  refine .of_opens hopens ?_ hks
  rw [Node.bare_mk, Shape.map, hn, hold]
  rfl

theorem element_own {object index : Expr} (ho : object.Readable) (name : String)
    (hi : index.Readable) : (element object name index).OwnReadable := by
  intro d c ks _ hc hf
  simp only [own, List.append_assoc] at hc
  obtain ⟨n, id, place, old, c₁, hn, hnil, -, hks, hopens⟩ := opens_field ho hc
  obtain ⟨i, c₂, hi, hclose, hreads⟩ := hi.closed (k := .symbol .closeBracket)
    (by simp [Grammar.Ending]) (Cursor.kinds_advance hks)
  have hallowed : Numbering.index (.mk id place (.compound n name old)) i c₂.span =
      .ok (pure (.mk id (place.join c₂.span) (.compound n name i))) := by
    simp only [Numbering.index, Node.shape, hnil, if_true]
    rfl
  have hindex := hopens.index (Cursor.kind?_of_kinds hks) hreads
    (Cursor.kind?_of_kinds hclose) hallowed
  refine .of_opens hindex ?_ (Cursor.kinds_advance hclose)
  refine (Node.bare_mk _ _ _).trans ?_
  rw [Shape.map, hn, hi]
  rfl

theorem item_own (name : String) {index : Expr} (hi : index.Readable) :
    (item name index).OwnReadable := by
  intro d c ks _ hc hf
  simp only [own, List.cons_append, List.append_assoc, List.nil_append] at hc
  have hname : c.advance.kinds = .symbol .openBracket :: _ := Cursor.kinds_advance hc
  have hparen : c.advance.kind? ≠ some (.symbol .openParen) := by
    simp [Cursor.kind?_of_kinds hname]
  obtain ⟨id, c₁, hks, hopens⟩ : ∃ id c₁, c₁.kinds = c.advance.kinds ∧
      Opens .postfixed d c (Node.mk id c.span (.var name none)) c₁ :=
    ⟨_, _, Cursor.kinds_build _ _, fun _ _ hm =>
      .postfixed (.name (Cursor.kind?_of_kinds hc) hparen) hm⟩
  rw [hname] at hks
  obtain ⟨i, c₂, hi, hclose, hreads⟩ := hi.closed (k := .symbol .closeBracket)
    (by simp [Grammar.Ending]) (Cursor.kinds_advance hks)
  have hindex := hopens.index (Cursor.kind?_of_kinds hks) hreads
    (Cursor.kind?_of_kinds hclose) rfl
  refine .of_opens hindex ?_ (Cursor.kinds_advance hclose)
  have hnil : ∀ id place, (Node.mk id place (.const .nil)).bare = Node.nil := fun _ _ =>
    Node.bare_mk _ _ _
  refine (Node.bare_mk _ _ _).trans ?_
  rw [Shape.map, hi]
  exact congrArg (fun object => Node.detached (.compound object name index.node)) (hnil _ _)

end Expr

end ProofScript
