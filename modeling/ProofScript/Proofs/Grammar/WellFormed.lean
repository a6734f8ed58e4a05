import ProofScript.Grammar.Script
import ProofScript.Proofs.Grammar.Soundness
import ProofScript.Proofs.Node.WellFormed

/-!
# What is read is well formed

Every expression that is read is regular, and no sequence, empty program or field initialiser
(`Node.IsExpr`). The rules of the grammar keep this, so it holds by induction over derivations
(`wellFormed_of_reads`); it is why the first part of a sequence is never a sequence. The items of a
script follow from it one reader at a time.
-/

namespace ProofScript

/-- Whether an expression can be read as this construct. The others are parts of a block or of an
allocation, or direct a proof. -/
def Tag.isExpr : Tag → Bool
  | seq | nop | init | script | proof | assert | assume => false
  | const | var | tuple | compound | new | method | assign | call | ite => true

namespace Node

/-- A regular tree that an expression can be read as. -/
structure IsExpr (n : Node) : Prop where
  /-- The tree is regular. -/
  regular : n.Regular
  /-- The construct at the root. -/
  root : n.tag.isExpr = true

/-- A regular field initialiser. -/
def IsInit (n : Node) : Prop := n.Regular ∧ n.tag = .init

/-- Every member of a list is an expression. -/
def AllExprs (ns : List Node) : Prop := ∀ n ∈ ns, n.IsExpr

/-- Every member of a list is a field initialiser. -/
def AllInits (ns : List Node) : Prop := ∀ n ∈ ns, n.IsInit

variable {n : Node} {ns : List Node} {id : NodeId} {span : Span} {s : Shape Node}

theorem regular_leaf (hs : s.WellFormed) (htag : s.tag.isSurface = false)
    (hchildren : s.children = []) : (mk id span s).Regular :=
  regular_mk.2 ⟨⟨hs, htag⟩, by simp [hchildren]⟩

theorem isExpr_mk (hs : s.WellFormed) (htag : s.tag.isExpr = true)
    (hchildren : ∀ k ∈ s.children, k.Regular) : (mk id span s).IsExpr := by
  refine ⟨regular_mk.2 ⟨⟨hs, ?_⟩, hchildren⟩, htag⟩
  revert htag
  cases s.tag <;> decide

/-- The initialiser of a field with a regular value. -/
theorem isInit_mk {name : String} {value : Node} {immutable : Bool} (h : value.Regular) :
    (mk id span (.init name value immutable)).IsInit :=
  ⟨regular_mk.2 ⟨⟨trivial, rfl⟩, by simpa [Shape.children] using h⟩, rfl⟩

theorem AllExprs.regular (h : AllExprs ns) : ∀ n ∈ ns, n.Regular := fun n hn => (h n hn).regular

theorem allExprs_nil : AllExprs [] := fun _ h => absurd h List.not_mem_nil

theorem allInits_nil : AllInits [] := fun _ h => absurd h List.not_mem_nil

theorem AllExprs.snoc (h : AllExprs ns) (hn : n.IsExpr) : AllExprs (ns ++ [n]) := by
  intro k hk
  rcases List.mem_append.1 hk with hk | hk
  · exact h k hk
  · exact List.mem_singleton.1 hk ▸ hn

theorem AllInits.snoc (h : AllInits ns) (hn : n.IsInit) : AllInits (ns ++ [n]) := by
  intro k hk
  rcases List.mem_append.1 hk with hk | hk
  · exact h k hk
  · exact List.mem_singleton.1 hk ▸ hn

end Node

/-! ## The nodes that are built -/

namespace Numbering

variable {n m : Node} {next : Nat} {span place : Span}

theorem regular_nil : ((nil span).run next).1.Regular := Node.regular_leaf trivial rfl rfl

theorem isExpr_call {name : String} {args : List Node} (hargs : Node.AllExprs args) :
    ((call span name args).run next).1.IsExpr := by
  refine Node.isExpr_mk trivial rfl fun k hk => ?_
  rcases List.mem_cons.1 hk with rfl | hk
  · exact regular_nil
  · exact hargs.regular k hk

theorem isExpr_binary {op : String} {lhs rhs : Node} (hl : lhs.IsExpr) (hr : rhs.IsExpr) :
    ((binary op lhs rhs).run next).1.IsExpr :=
  isExpr_call ((Node.allExprs_nil.snoc hl).snoc hr)

theorem isExpr_unary {op : Symbol} {arg : Node} (h : arg.IsExpr) :
    ((unary op place arg).run next).1.IsExpr := by
  unfold unary
  dsimp only
  split
  · exact Node.isExpr_mk trivial rfl fun _ hk => absurd hk List.not_mem_nil
  · next hs =>
    rw [hs]
    exact Node.isExpr_mk trivial rfl fun _ hk => absurd hk List.not_mem_nil
  · exact isExpr_call (Node.allExprs_nil.snoc h)

/-- A field, or an element of a field, is an expression. -/
theorem isExpr_compound {id : NodeId} {object i : Node} {name : String} (ho : object.Regular)
    (hi : i.Regular) : (Node.mk id span (.compound object name i)).IsExpr :=
  Node.isExpr_mk trivial rfl (by simpa [Shape.children] using ⟨ho, hi⟩)

theorem isExpr_field {object : Node} {name : String} (h : object.IsExpr) :
    ((field object name place).run next).1.IsExpr :=
  isExpr_compound h.regular regular_nil

theorem isExpr_index {base i : Node} {make : Numbering Node} (hbase : base.IsExpr) (hi : i.IsExpr)
    (h : index base i place = .ok make) : (make.run next).1.IsExpr := by
  unfold index at h
  dsimp only at h
  split at h
  · next object name old hs =>
    have ho : object.Regular := hbase.regular.child (by simp [Node.children, hs, Shape.children])
    split at h
    · obtain rfl := Except.ok.inj h
      exact isExpr_compound ho hi.regular
    · contradiction
  · obtain rfl := Except.ok.inj h
    exact isExpr_compound regular_nil hi.regular
  · contradiction

theorem isExpr_memberCall {target all : Node} {args : List Node} (ht : target.IsExpr)
    (hargs : Node.AllExprs args) (h : memberCall target args place = .ok all) : all.IsExpr := by
  unfold memberCall at h
  dsimp only at h
  split at h
  · next receiver name i hs =>
    have hr : receiver.Regular := ht.regular.child (by simp [Node.children, hs, Shape.children])
    split at h
    · obtain rfl := Except.ok.inj h
      refine Node.isExpr_mk trivial rfl fun k hk => ?_
      rcases List.mem_cons.1 hk with rfl | hk
      · exact hr
      · exact hargs.regular k hk
    · contradiction
  · contradiction

/-- Statements make a regular sequence. -/
theorem regular_sequence {items : List Node} : ∀ {first : Node} {next : Nat},
    first.IsExpr → Node.AllExprs items → ((sequence first items).run next).1.Regular := by
  induction items with
  | nil => intro first next hfirst _; exact hfirst.regular
  | cons second rest ih =>
    intro first next hfirst hitems
    have htail : ((sequence second rest).run next).1.Regular :=
      ih (hitems _ List.mem_cons_self) fun k hk => hitems k (List.mem_cons_of_mem _ hk)
    have hseq : first.tag ≠ .seq := fun h => by simpa [h, Tag.isExpr] using hfirst.root
    have hnop : first.tag ≠ .nop := fun h => by simpa [h, Tag.isExpr] using hfirst.root
    refine Node.regular_mk.2 ⟨⟨⟨hfirst.regular.notSurface, htail.notSurface, hseq, hnop⟩, rfl⟩, ?_⟩
    simpa [Shape.children] using ⟨hfirst.regular, htail⟩

theorem regular_block {items : List Node} (h : Node.AllExprs items) :
    ((block span items).run next).1.Regular := by
  cases items with
  | nil => exact Node.regular_leaf trivial rfl rfl
  | cons first rest =>
    exact regular_sequence (h _ List.mem_cons_self) fun k hk => h k (List.mem_cons_of_mem _ hk)

end Numbering

namespace Grammar

/-- What a phrase builds is as it should be, given that what it continues is. -/
def Phrase.WellFormed : Phrase → Prop
  | .level _ _ n | .primary _ n | .argument n | .initialValue _ n => n.IsExpr
  | .operators _ _ base n | .accessors base n => base.IsExpr → n.IsExpr
  | .block n | .otherwise _ n => n.Regular
  | .statements before all _ | .arguments before all _ | .components _ before all _ =>
    Node.AllExprs before → Node.AllExprs all
  | .initialisers before all => Node.AllInits before → Node.AllInits all

/-- What is built by a derivation is well formed. -/
theorem wellFormed_of_reads {p : Phrase} {c c' : Cursor} (h : Reads p c c') : p.WellFormed := by
  induction h with
  | operands _ _ _ first rest => exact rest first
  | noOperator _ => exact id
  | operator _ _ _ operand rest => exact fun hl => rest (Numbering.isExpr_binary hl operand)
  | unassigned _ _ target => exact target
  | assigned _ _ ok _ _ left right =>
    have htag := by simpa [isAssignable] using ok
    exact Node.isExpr_mk htag rfl (by simpa [Shape.children] using ⟨left.regular, right.regular⟩)
  | uncompared _ _ sum => exact sum
  | compared _ _ _ _ first second => exact Numbering.isExpr_binary first second
  | unsigned _ _ postfixed => exact postfixed
  | signed _ _ operand => exact Numbering.isExpr_unary operand
  | postfixed _ _ primary accessors => exact accessors primary
  | noAccessor _ _ _ => exact id
  | field _ _ _ rest => exact fun hb => rest (Numbering.isExpr_field hb)
  | index _ _ _ ok _ inner rest => exact fun hb => rest (Numbering.isExpr_index hb inner ok)
  | memberCall _ _ _ ok _ inner rest =>
    exact fun hb => rest (Numbering.isExpr_memberCall hb (inner Node.allExprs_nil) ok)
  | number _ => exact Node.isExpr_mk trivial rfl fun _ hk => absurd hk List.not_mem_nil
  | name _ _ => exact Node.isExpr_mk trivial rfl fun _ hk => absurd hk List.not_mem_nil
  | call _ _ _ _ inner => exact Numbering.isExpr_call (inner Node.allExprs_nil)
  | method _ _ _ _ formals _ inner block =>
    refine Node.isExpr_mk formals rfl fun k hk => ?_
    rcases List.mem_append.1 hk with hk | hk
    · exact (inner Node.allExprs_nil).regular k hk
    · exact List.mem_singleton.1 hk ▸ block
  | allocation _ _ _ _ inner block =>
    have hinits := inner Node.allInits_nil
    refine Node.isExpr_mk (fun f hf => (hinits f hf).2) rfl fun k hk => ?_
    rcases List.mem_append.1 hk with hk | hk
    · exact (hinits k hk).1
    · exact List.mem_singleton.1 hk ▸ block
  | conditional _ _ _ _ test first second =>
    exact Node.isExpr_mk trivial rfl (by simpa [Shape.children] using ⟨test.regular, first, second⟩)
  | parenthesised _ _ _ inner => exact inner
  | tuple _ _ _ inner rest =>
    exact Node.isExpr_mk trivial rfl (rest (Node.allExprs_nil.snoc inner)).regular
  | endComponents _ => exact id
  | component _ _ _ one rest => exact fun hb => rest (hb.snoc one)
  | typedFormal _ _ _ => exact Node.isExpr_mk trivial rfl fun _ hk => absurd hk List.not_mem_nil
  | argument _ _ expr => exact expr
  | endArguments _ => exact id
  | lastArgument _ _ _ one => exact fun hb => hb.snoc one
  | nextArgument _ _ _ _ one rest => exact fun hb => rest (hb.snoc one)
  | endStatements _ => exact id
  | statement _ _ _ one rest => exact fun hb => rest (hb.snoc one)
  | block _ _ inner => exact Numbering.regular_block (inner Node.allExprs_nil)
  | noValue _ => exact Node.isExpr_mk trivial rfl fun _ hk => absurd hk List.not_mem_nil
  | value _ _ expr => exact expr
  | endInitialisers _ => exact id
  | lastInitialiser _ _ _ initial =>
    exact fun hb => hb.snoc (Node.isInit_mk initial.regular)
  | nextInitialiser _ _ _ _ initial rest =>
    exact fun hb => rest (hb.snoc (Node.isInit_mk initial.regular))
  | noOtherwise _ => exact Node.regular_leaf trivial rfl rfl
  | otherwise _ _ block => exact block

/-- What is read as an expression is one. -/
theorem isExpr_of_expr {d : Bool} {c : Cursor} {p : Parsed c.size Node} (h : expr d c = .ok p) :
    p.value.IsExpr :=
  wellFormed_of_reads (reads_of_expr h)

end Grammar

/-! ## Proof chains -/

namespace Node

/-- A proof chain with at least two terms and with a slot for each term, the last of them empty. -/
inductive IsChain : Node → Prop where
  /-- The terms and the hints are expressions. -/
  | mk {id : NodeId} {span : Span} {terms : List Node} {hints : List (Option Node)}
      {verbatims : List String} (allTerms : AllExprs terms)
      (allHints : ∀ h ∈ hints, ∀ k ∈ h, k.IsExpr)
      (slots : (Shape.proof terms hints verbatims).WellFormed) :
      IsChain (mk id span (.proof terms hints verbatims))

/-- What stands in a script: an expression, an assertion, a proof chain or an assumption. -/
inductive IsItem : Node → Prop where
  /-- An expression. -/
  | expr {n : Node} (h : n.IsExpr) : IsItem n
  /-- An assertion. -/
  | assertion {id : NodeId} {span : Span} {condition : Node} (h : condition.IsExpr) :
      IsItem (mk id span (.assert condition))
  /-- A proof chain. -/
  | chain {n : Node} (h : n.IsChain) : IsItem n
  /-- An assumption. -/
  | assumption {id : NodeId} {span : Span} {chain : Node} (h : chain.IsChain)
      (two : (Shape.assume chain).WellFormed) : IsItem (mk id span (.assume chain))

end Node

namespace Grammar

/-- A proof chain as it is read, before the last slots are added. -/
structure Chain.WellFormed (chain : Chain) : Prop where
  /-- The terms are expressions. -/
  terms : Node.AllExprs chain.terms
  /-- The hints that are present are expressions. -/
  hints : ∀ h ∈ chain.hints, ∀ k ∈ h, k.IsExpr
  /-- There is a hint slot for each term but the last. -/
  hintSlots : chain.hints.length + 1 = chain.terms.length
  /-- There is a verbatim slot for each term but the last. -/
  verbatimSlots : chain.verbatims.length + 1 = chain.terms.length

theorem isExpr_of_hint {c : Cursor} {p : Parsed (c.size + 1) (Option Node × String)}
    (h : annotation c = .ok p) : ∀ k ∈ p.value.1, k.IsExpr := by
  unfold annotation at h
  split at h
  · obtain ⟨hint, hh, h⟩ := ok_of_bind h
    obtain ⟨close, -, h⟩ := ok_of_bind h
    obtain rfl := Except.ok.inj h
    rintro k hk
    obtain rfl := Option.mem_some.1 hk
    exact isExpr_of_expr hh
  · obtain rfl := Except.ok.inj h
    exact fun k hk => absurd hk (Option.not_mem_none k)

/-- A further arrow and term keep a chain well formed. -/
theorem Chain.WellFormed.snoc {chain : Chain} (h : chain.WellFormed) {hint : Option Node}
    {term : Node} (verbatim : String) (span : Span) (hhint : ∀ k ∈ hint, k.IsExpr)
    (hterm : term.IsExpr) :
    Chain.WellFormed { terms := chain.terms ++ [term], hints := chain.hints ++ [hint],
                       verbatims := chain.verbatims ++ [verbatim], span := span } where
  terms := h.terms.snoc hterm
  hints := by
    intro o ho
    rcases List.mem_append.1 ho with ho | ho
    · exact h.hints o ho
    · exact List.mem_singleton.1 ho ▸ hhint
  hintSlots := by simp [h.hintSlots]
  verbatimSlots := by simp [h.verbatimSlots]

theorem wellFormed_of_arrows {chain : Chain} {c : Cursor} : chain.WellFormed →
    ∀ {p : Parsed (c.size + 1) Chain}, arrows chain c = .ok p →
      p.value.WellFormed ∧ chain.terms.length ≤ p.value.terms.length ∧
        (c.kind? = some (.symbol .tilde) → chain.terms.length < p.value.terms.length) := by
  fun_induction arrows chain c with
  | case1 => intro _ p hp; contradiction
  | case2 => intro _ p hp; contradiction
  | case3 => intro _ p hp; contradiction
  | case4 chain c ht _ note hn _ term hterm _ all hall _ ih =>
    intro hc p hp
    obtain rfl := Except.ok.inj hp
    have hlonger := hc.snoc note.value.2 (chain.span.join term.value.span)
      (isExpr_of_hint hn) (isExpr_of_expr hterm)
    obtain ⟨hwf, hle, -⟩ := ih hlonger hall
    simp only [List.length_append, List.length_singleton] at hle
    exact ⟨hwf, Nat.le_of_succ_le hle, fun _ => hle⟩
  | case5 chain c ht =>
    intro hc p hp
    obtain rfl := Except.ok.inj hp
    exact ⟨hc, Nat.le_refl _, fun h => absurd h ht⟩

/-- A chain that starts with an expression in front of an arrow is well formed. -/
theorem isChain_of_chainFrom {first : Node} {c : Cursor} {p : Parsed (c.size + 1) Node}
    (hfirst : first.IsExpr) (htilde : c.at? .tilde = true) (h : chainFrom first c = .ok p) :
    p.value.IsChain := by
  obtain ⟨chain, hchain, h⟩ := ok_of_bind h
  obtain rfl := Except.ok.inj h
  have hstart : Chain.WellFormed { terms := [first], hints := [], verbatims := [],
                                   span := first.span } :=
    ⟨Node.allExprs_nil.snoc hfirst, fun _ h => absurd h List.not_mem_nil, rfl, rfl⟩
  obtain ⟨hwf, -, hlonger⟩ := wellFormed_of_arrows hstart hchain
  have hmore := hlonger (by simpa [Cursor.at?] using htilde)
  have hhints := hwf.hintSlots
  have hverbatims := hwf.verbatimSlots
  refine .mk hwf.terms (fun o ho => ?_) ⟨?_, ?_, ?_, by simp, by simp⟩
  · rcases List.mem_append.1 ho with ho | ho
    · exact hwf.hints o ho
    · obtain rfl := List.mem_singleton.1 ho
      exact fun k hk => absurd hk (Option.not_mem_none k)
  · exact hmore
  · simpa using hhints
  · simpa using hverbatims

/-! ## Scripts -/

/-- A chain of two terms may be taken for granted. -/
theorem assume_of_termCount {chain : Node} (h : chain.IsChain) (two : termCount chain = 2) :
    (Shape.assume chain).WellFormed := by
  cases h with
  | @mk _ _ terms hints verbatims _ _ _ =>
    match terms, two with
    | [a, b], _ => exact ⟨a, b, hints, verbatims, rfl⟩

theorem isItem_of_assumption {place : Span} {c : Cursor} {p : Parsed c.size Node}
    (h : assumption place c = .ok p) : p.value.IsItem := by
  obtain ⟨first, hfirst, h⟩ := ok_of_bind h
  split at h
  · next htilde =>
    obtain ⟨chain, hchain, h⟩ := ok_of_bind h
    have hc := isChain_of_chainFrom (isExpr_of_expr hfirst) htilde hchain
    dsimp only at h
    split at h
    · next htwo =>
      obtain rfl := Except.ok.inj h
      exact .assumption hc (assume_of_termCount hc htwo)
    · contradiction
  · contradiction

theorem isItem_of_statementOrChain {c : Cursor} {p : Parsed c.size Node}
    (h : statementOrChain c = .ok p) : p.value.IsItem := by
  obtain ⟨first, hfirst, h⟩ := ok_of_bind h
  split at h
  · next htilde =>
    obtain ⟨chain, hchain, h⟩ := ok_of_bind h
    obtain rfl := Except.ok.inj h
    exact .chain (isChain_of_chainFrom (isExpr_of_expr hfirst) htilde hchain)
  · obtain rfl := Except.ok.inj h
    exact .expr (isExpr_of_expr hfirst)

theorem isItem_of_item {c : Cursor} {p : Parsed c.size Node} (h : item c = .ok p) :
    p.value.IsItem := by
  unfold item at h
  split at h
  · obtain ⟨all, hall, h⟩ := ok_of_bind h
    obtain rfl := Except.ok.inj h
    obtain ⟨condition, hcondition, hall⟩ := ok_of_bind hall
    obtain rfl := Except.ok.inj hall
    exact .assertion (isExpr_of_expr hcondition)
  · split at h
    · obtain ⟨all, hall, h⟩ := ok_of_bind h
      obtain rfl := Except.ok.inj h
      exact (isItem_of_assumption hall : all.value.IsItem)
    · exact isItem_of_statementOrChain h

theorem isItem_of_items {c : Cursor} : ∀ {ns : List Node} {c' : Cursor},
    items c = .ok (ns, c') → ∀ n ∈ ns, n.IsItem := by
  fun_induction items c with
  | case1 | case2 =>
    intro ns c' h n hn
    obtain ⟨rfl, -⟩ := Prod.mk.inj (Except.ok.inj h)
    exact absurd hn List.not_mem_nil
  | case3 | case4 => intro ns c' h; contradiction
  | case5 =>
    rename_i first hfirst _ rest _ hrest ih
    intro ns c' h n hn
    obtain ⟨rfl, -⟩ := Prod.mk.inj (Except.ok.inj h)
    rcases List.mem_cons.1 hn with rfl | hn
    · exact isItem_of_item hfirst
    · exact ih hrest n hn

/-- A script is a list of items. -/
theorem script_of_tokens {tokens : List Token} {n : Node} (h : script tokens = .ok n) :
    ∃ items, n.shape = .script items ∧ ∀ item ∈ items, item.IsItem := by
  obtain ⟨⟨items, rest⟩, hitems, h⟩ := ok_of_bind h
  obtain rfl := Except.ok.inj h
  exact ⟨items, rfl, isItem_of_items hitems⟩

theorem isExpr_of_soleExpr {tokens : List Token} {n : Node} (h : soleExpr tokens = .ok n) :
    n.IsExpr := by
  obtain ⟨all, hall, h⟩ := ok_of_bind h
  split at h
  · obtain rfl := Except.ok.inj h
    exact isExpr_of_expr hall
  · contradiction

end Grammar

/-! ## Source texts -/

namespace Node

variable {source : String} {n : Node}

theorem readWith_ok_iff {grammar : List Token → Except ParseError Node} :
    readWith grammar source = .ok n ↔
      ∃ tokens, Token.scan source = .ok tokens ∧ grammar tokens = .ok n := by
  unfold readWith
  constructor
  · intro h
    split at h
    · contradiction
    · next tokens htokens =>
      split at h
      · contradiction
      · next n' hn =>
        obtain rfl := Except.ok.inj h
        exact ⟨tokens, htokens, hn⟩
  · rintro ⟨tokens, htokens, hn⟩
    simp only [htokens, hn]

/-- The tree of a script is a list of items. -/
theorem script_of_ofScript (h : ofScript source = .ok n) :
    ∃ items, n.shape = .script items ∧ ∀ item ∈ items, item.IsItem := by
  obtain ⟨tokens, -, h⟩ := readWith_ok_iff.1 h
  exact Grammar.script_of_tokens h

theorem isExpr_of_ofExpr (h : ofExpr source = .ok n) : n.IsExpr := by
  obtain ⟨tokens, -, h⟩ := readWith_ok_iff.1 h
  exact Grammar.isExpr_of_soleExpr h

/-- The layers of a proof chain are well formed, and only its root directs a proof. -/
theorem IsChain.layers (h : n.IsChain) :
    (n.Everywhere fun m => m.shape.WellFormed) ∧ ∀ k ∈ n.children, k.SurfaceFree := by
  cases h with
  | @mk id span terms hints verbatims allTerms allHints slots =>
    have below : ∀ k ∈ (Shape.proof terms hints verbatims).children, k.Regular := by
      intro k hk
      rcases List.mem_append.1 hk with hk | hk
      · exact allTerms.regular k hk
      · obtain ⟨o, ho, hk⟩ := List.mem_filterMap.1 hk
        exact (allHints o ho k hk).regular
    exact ⟨everywhere_mk.2 ⟨slots, fun k hk => (below k hk).layers⟩,
      fun k hk => (below k hk).surfaceFree⟩

/-- The layers of an item are well formed, and what directs a proof stands where it may. -/
theorem IsItem.layers (h : n.IsItem) :
    (n.Everywhere fun m => m.shape.WellFormed) ∧ n.ArrangedItem := by
  cases h with
  | expr h => exact ⟨h.regular.layers, h.regular.arrangedItem⟩
  | @assertion id span condition h =>
    have below : ∀ k ∈ (Shape.assert condition).children, k.Regular := fun k hk =>
      List.mem_singleton.1 hk ▸ h.regular
    exact ⟨everywhere_mk.2 ⟨trivial, fun k hk => (below k hk).layers⟩,
      fun k hk => (below k hk).surfaceFree⟩
  | chain h =>
    obtain ⟨hlayers, hbelow⟩ := h.layers
    refine ⟨hlayers, ?_⟩
    cases h
    exact hbelow
  | @assumption id span chain h two =>
    obtain ⟨hlayers, hbelow⟩ := h.layers
    have htag : chain.tag = .proof := by cases h; rfl
    exact ⟨everywhere_mk.2 ⟨two, fun k hk => List.mem_singleton.1 hk ▸ hlayers⟩, htag, hbelow⟩

/-- A script that is read is well formed. -/
theorem wellFormed_of_ofScript (h : ofScript source = .ok n) :
    n.WellFormed ∧ n.tag = .script := by
  obtain ⟨items, hs, hitems⟩ := script_of_ofScript h
  cases n with
  | mk id span s =>
    obtain rfl : s = .script items := hs
    refine ⟨⟨?_, fun k hk => (hitems k hk).layers.2⟩, rfl⟩
    exact everywhere_mk.2 ⟨trivial, fun k hk => (hitems k hk).layers.1⟩

/-- A tree that is read, as a script or as an expression, is well formed. -/
theorem wellFormed_of_read (h : ofScript source = .ok n ∨ ofExpr source = .ok n) :
    n.WellFormed := by
  rcases h with h | h
  · exact (wellFormed_of_ofScript h).1
  · exact (isExpr_of_ofExpr h).regular.wellFormed

theorem wellFormed_of_read_item : ∃ n,
    ofScript "assume a ~ b; new (f = 1) { m(x : *) { f = x; f } } ~ [Admit] b; assert f" = .ok n ∧
      n.WellFormed := by
  have hread : (ofScript
      "assume a ~ b; new (f = 1) { m(x : *) { f = x; f } } ~ [Admit] b; assert f").isOk = true := by
    decide +kernel
  cases hn : ofScript
      "assume a ~ b; new (f = 1) { m(x : *) { f = x; f } } ~ [Admit] b; assert f" with
  | error e => simp [hn, Except.isOk, Except.toBool] at hread
  | ok n => exact ⟨n, rfl, wellFormed_of_read (.inl hn)⟩

end Node

end ProofScript
