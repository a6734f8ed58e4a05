import ProofScript.Proofs.Grammar.Positions
import ProofScript.Proofs.Grammar.WellFormed

/-!
# Where types may stand

A variable carries a type where it has been read as a formal parameter. Formals are read by the same
rule as the arguments of a call, and the two are told apart only by the block behind the closing
parenthesis. So a type can stand among the formals of a method, and it can also be left among the
arguments of a call; it stands nowhere else (`Node.untyped_of_read`). The operands of an operator
are arguments of a call as well, but they are read by other rules and carry no types. The two kinds
of calls are told apart by their names, and the names in a text are names (`Token.named_of_scan`).
-/

namespace ProofScript

/-- The children of a construct that are no place for a type: all of them, but for the formals of a
method and the arguments of a call that is written with a name. -/
def Shape.untyped : Shape Node → List Node
  | .method _ _ body => [body]
  | .call receiver name args =>
    if Text.isName name.toList then [receiver] else receiver :: args
  | s => s.children

theorem Shape.untyped_subset (s : Shape Node) : s.untyped ⊆ s.children := by
  cases s with
  | method name formals body => exact List.subset_append_right _ _
  | call receiver name args =>
    show (if Text.isName name.toList then [receiver] else receiver :: args) ⊆ receiver :: args
    split
    · exact List.cons_subset_cons _ (List.nil_subset _)
    · exact List.Subset.refl _
  | _ => exact List.Subset.refl _

namespace Node

/-- Whether a node is a variable with a type. -/
def isTyped (n : Node) : Bool :=
  match n.shape with
  | .var _ type => type.isSome
  | _ => false

/-- Whether the name of a variable or of a field is one. -/
def isNamed (n : Node) : Bool :=
  match n.shape with
  | .var name _ | .compound _ name _ => Text.isName name.toList
  | _ => true

/-- Types stand only where they may just below a node. A variable or a field has a proper name, so
that what it becomes when it is indexed or called has one, too. -/
structure TypesPlaced (n : Node) : Prop where
  untyped : ∀ k ∈ n.shape.untyped, k.isTyped = false
  named : n.isNamed = true

/-- Types stand only where they may in a whole tree. -/
def Typing (n : Node) : Prop := n.Everywhere TypesPlaced

/-- A tree for a place where no type may stand. -/
structure Untyped (n : Node) : Prop where
  root : n.isTyped = false
  layers : n.Typing

/-- No member of a list carries a type. -/
def AllUntyped (ns : List Node) : Prop := ∀ n ∈ ns, n.Untyped

/-- Members of a list may carry types. -/
def AllTyping (ns : List Node) : Prop := ∀ n ∈ ns, n.Typing

variable {n : Node} {ns : List Node} {id : NodeId} {span : Span} {s : Shape Node}

theorem allUntyped_nil : AllUntyped [] := List.forall_mem_nil _

theorem allTyping_nil : AllTyping [] := List.forall_mem_nil _

theorem AllUntyped.snoc (h : AllUntyped ns) (hn : n.Untyped) : AllUntyped (ns ++ [n]) :=
  List.forall_mem_append.2 ⟨h, List.forall_mem_singleton.2 hn⟩

theorem AllTyping.snoc (h : AllTyping ns) (hn : n.Typing) : AllTyping (ns ++ [n]) :=
  List.forall_mem_append.2 ⟨h, List.forall_mem_singleton.2 hn⟩

theorem untyped_mk (hroot : (mk id span s).isTyped = false) (hnamed : (mk id span s).isNamed = true)
    (huntyped : ∀ k ∈ s.untyped, k.isTyped = false) (hchildren : AllTyping s.children) :
    (mk id span s).Untyped :=
  ⟨hroot, everywhere_mk.2 ⟨⟨huntyped, hnamed⟩, hchildren⟩⟩

/-- Most constructs have no place for a type at all. -/
theorem untyped_of_children (hs : s.tag ∉ [.var, .compound]) (h : AllUntyped s.children) :
    (mk id span s).Untyped := by
  have hroot : (mk id span s).isTyped = false ∧ (mk id span s).isNamed = true := by
    cases s with
    | var | compound => exact absurd (by simp [Shape.tag]) hs
    | _ => exact ⟨rfl, rfl⟩
  exact untyped_mk hroot.1 hroot.2 (fun k hk => (h k (s.untyped_subset hk)).root) fun k hk =>
    (h k hk).layers

theorem untyped_const {v : Value} : (mk id span (.const v)).Untyped :=
  untyped_of_children (by simp [Shape.tag]) fun _ hk => nomatch hk

/-- A variable, with or without a type. -/
theorem typing_var {name : String} {type : Option VarType} (h : Text.isName name.toList = true) :
    (mk id span (.var name type)).Typing :=
  everywhere_mk.2 ⟨⟨List.forall_mem_nil _, h⟩, List.forall_mem_nil _⟩

theorem untyped_init {name : String} {value : Node} {immutable : Bool} (h : value.Untyped) :
    (mk id span (.init name value immutable)).Untyped :=
  untyped_of_children (by simp [Shape.tag]) (allUntyped_nil.snoc h)

theorem untyped_compound {object index : Node} {name : String} (ho : object.Untyped)
    (hname : Text.isName name.toList = true) (hi : index.Untyped) :
    (mk id span (.compound object name index)).Untyped := by
  have hchildren : AllUntyped [object, index] := (allUntyped_nil.snoc ho).snoc hi
  exact untyped_mk rfl hname (fun k hk => (hchildren k hk).root) fun k hk => (hchildren k hk).layers

/-- The arguments of a call with a name may carry types. -/
theorem untyped_call {receiver : Node} {name : String} {args : List Node} (hr : receiver.Untyped)
    (hname : Text.isName name.toList = true) (hargs : AllTyping args) :
    (mk id span (.call receiver name args)).Untyped := by
  refine untyped_mk rfl rfl ?_ (List.forall_mem_cons.2 ⟨hr.layers, hargs⟩)
  rw [Shape.untyped, if_pos hname]
  exact List.forall_mem_singleton.2 hr.root

/-- The formals of a method may carry types. -/
theorem untyped_method {name : String} {formals : List Node} {body : Node} (hf : AllTyping formals)
    (hb : body.Untyped) : (mk id span (.method name formals body)).Untyped :=
  untyped_mk rfl rfl (List.forall_mem_singleton.2 hb.root)
    (List.forall_mem_append.2 ⟨hf, List.forall_mem_singleton.2 hb.layers⟩)

/-- The receiver and the index of a field access. -/
theorem Untyped.compound {object index : Node} {name : String} (h : n.Untyped)
    (hs : n.shape = .compound object name index) :
    object.Untyped ∧ Text.isName name.toList = true ∧ index.Untyped := by
  have hroot := h.layers.root
  have hchild : ∀ k ∈ n.children, k.Untyped := by
    intro k hk
    refine ⟨hroot.untyped k ?_, h.layers.child hk⟩
    rw [children, hs] at hk
    rwa [hs]
  have hname : Text.isName name.toList = true := by
    have hnamed := hroot.named
    rwa [isNamed, hs] at hnamed
  have hmem : n.children = [object, index] := by rw [children, hs]; rfl
  exact ⟨hchild _ (by simp [hmem]), hname, hchild _ (by simp [hmem])⟩

end Node

/-! ## The nodes that are built -/

namespace Numbering

variable {n m : Node} {next : Nat} {span place : Span}

theorem untyped_nil : ((nil span).run next).1.Untyped := Node.untyped_const

theorem untyped_call {name : String} {args : List Node} (hname : Text.isName name.toList = true)
    (hargs : Node.AllTyping args) : ((call span name args).run next).1.Untyped :=
  Node.untyped_call untyped_nil hname hargs

/-- The operands of an operator carry no types, whatever its name is. -/
theorem untyped_operator {name : String} {args : List Node} (hargs : Node.AllUntyped args) :
    ((call span name args).run next).1.Untyped := by
  have hchildren : Node.AllUntyped (((nil span).run next).1 :: args) :=
    List.forall_mem_cons.2 ⟨untyped_nil, hargs⟩
  exact Node.untyped_of_children (by simp [Shape.tag]) hchildren

theorem untyped_binary {op : String} (hn : n.Untyped) (hm : m.Untyped) :
    ((binary op n m).run next).1.Untyped :=
  untyped_operator ((Node.allUntyped_nil.snoc hn).snoc hm)

theorem untyped_unary {op : Symbol} (h : n.Untyped) : ((unary op place n).run next).1.Untyped := by
  unfold unary
  dsimp only
  split
  · exact Node.untyped_const
  · next hs =>
    rw [hs]
    exact Node.untyped_const
  · exact untyped_operator (Node.allUntyped_nil.snoc h)

theorem untyped_field {name : String} (h : n.Untyped) (hname : Text.isName name.toList = true) :
    ((field n name place).run next).1.Untyped :=
  Node.untyped_compound h hname untyped_nil

theorem untyped_index {make : Numbering Node} (hn : n.Untyped) (hm : m.Untyped)
    (h : index n m place = .ok make) : (make.run next).1.Untyped := by
  unfold index at h
  dsimp only at h
  split at h
  · next object name old hs =>
    obtain ⟨ho, hfield, -⟩ := hn.compound hs
    split at h
    · obtain rfl := Except.ok.inj h
      exact Node.untyped_compound ho hfield hm
    · contradiction
  · next name type hs =>
    have hname := hn.layers.root.named
    rw [Node.isNamed, hs] at hname
    obtain rfl := Except.ok.inj h
    exact Node.untyped_compound untyped_nil hname hm
  · contradiction

/-- The arguments of a method call may carry types. -/
theorem untyped_memberCall {call : Node} {args : List Node} (hn : n.Untyped)
    (hargs : Node.AllTyping args) (h : memberCall n args place = .ok call) : call.Untyped := by
  unfold memberCall at h
  dsimp only at h
  split at h
  · next receiver name i hs =>
    obtain ⟨hr, hname, -⟩ := hn.compound hs
    split at h
    · obtain rfl := Except.ok.inj h
      exact Node.untyped_call hr hname hargs
    · contradiction
  · contradiction

/-- The statements of a block. -/
theorem untyped_sequence {rest : List Node} : ∀ {first : Node} {next : Nat}, first.Untyped →
    Node.AllUntyped rest → ((sequence first rest).run next).1.Untyped := by
  induction rest with
  | nil => exact fun h _ => h
  | cons second rest ih =>
    intro first next hfirst hrest
    obtain ⟨hsecond, hrest⟩ := List.forall_mem_cons.1 hrest
    have htail : ((sequence second rest).run next).1.Untyped := ih hsecond hrest
    exact Node.untyped_of_children (by simp [Shape.tag])
      ((Node.allUntyped_nil.snoc hfirst).snoc htail)

theorem untyped_block {items : List Node} (h : Node.AllUntyped items) :
    ((block span items).run next).1.Untyped := by
  cases items with
  | nil => exact Node.untyped_of_children (by simp [Shape.tag]) Node.allUntyped_nil
  | cons first rest =>
    obtain ⟨hfirst, hrest⟩ := List.forall_mem_cons.1 h
    exact untyped_sequence hfirst hrest

end Numbering

/-! ## Expressions -/

/-- The names that are left at a position are names. -/
def Cursor.Named (c : Cursor) : Prop :=
  ∀ t ∈ c.tokens, ∀ text, t.kind = .name text → Text.isName text.toList = true

namespace Cursor.Named

variable {c c' : Cursor} {text : String}

theorem behind (hc : c.Named) (h : c'.Behind c) : c'.Named := fun t ht => hc t (h.1.subset ht)

theorem advance (hc : c.Named) : c.advance.Named := hc.behind c.behind_advance

theorem isName (hc : c.Named) (h : c.kind? = some (.name text)) :
    Text.isName text.toList = true := by
  obtain ⟨t, ht, hk⟩ := Option.map_eq_some_iff.1 h
  exact hc t (List.mem_of_mem_head? ht) text hk

end Cursor.Named

namespace Grammar

/-- What a phrase builds carries types only where they may stand, given that what it continues
does. -/
def Phrase.Typing : Phrase → Prop
  | .level _ _ n | .primary _ n | .initialValue _ n | .block n | .otherwise _ n => n.Untyped
  | .argument n => n.Typing
  | .operators _ _ base n | .accessors base n => base.Untyped → n.Untyped
  | .statements before all _ | .components _ before all _ | .initialisers before all =>
    Node.AllUntyped before → Node.AllUntyped all
  | .arguments before all _ => Node.AllTyping before → Node.AllTyping all

theorem typing_of_reads {p : Phrase} {c c' : Cursor} (h : Reads p c c') : c.Named → p.Typing := by
  induction h with
  | operands _ first _ ihFirst ihRest =>
    exact fun hc => ihRest (hc.behind (behind_of_reads first)) (ihFirst hc)
  | noOperator _ => exact fun _ => id
  | operator _ operand _ ihOperand ihRest =>
    intro hc hl
    have hc₁ := hc.advance.behind (behind_of_reads operand)
    exact ihRest hc₁ (Numbering.untyped_binary hl (ihOperand hc.advance))
  | unassigned _ _ ih => exact ih
  | assigned left _ _ _ _ ihLeft ihRight =>
    intro hc
    have hvalue := ihRight (hc.behind (behind_of_reads left)).advance
    exact Node.untyped_of_children (by simp [Shape.tag])
      ((Node.allUntyped_nil.snoc (ihLeft hc)).snoc hvalue)
  | uncompared _ _ ih => exact ih
  | compared first _ _ _ ihFirst ihSecond =>
    exact fun hc => Numbering.untyped_binary (ihFirst hc)
      (ihSecond (hc.behind (behind_of_reads first)).advance)
  | unsigned _ _ ih => exact ih
  | signed _ _ ih => exact fun hc => Numbering.untyped_unary (ih hc.advance)
  | postfixed primary _ ihPrimary ihAccessors =>
    exact fun hc => ihAccessors (hc.behind (behind_of_reads primary)) (ihPrimary hc)
  | noAccessor _ _ _ => exact fun _ => id
  | field _ name _ ih =>
    exact fun hc hb => ih hc.advance.advance (Numbering.untyped_field hb (hc.advance.isName name))
  | index _ inner _ ok _ ihInner ihRest =>
    exact fun hc hb => ihRest (hc.advance.behind (behind_of_reads inner)).advance
      (Numbering.untyped_index hb (ihInner hc.advance) ok)
  | memberCall _ _ inner ok _ ihInner ihRest =>
    exact fun hc hb => ihRest (hc.advance.behind (behind_of_reads inner))
      (Numbering.untyped_memberCall hb (ihInner hc.advance Node.allTyping_nil) ok)
  | number _ => exact fun _ => Node.untyped_const
  | name name _ => exact fun hc => ⟨rfl, Node.typing_var (hc.isName name)⟩
  | call name _ _ _ ih =>
    exact fun hc => Numbering.untyped_call (hc.isName name)
      (ih hc.advance.advance Node.allTyping_nil)
  | method _ _ inner _ _ _ ihInner ihBlock =>
    exact fun hc => Node.untyped_method (ihInner hc.advance.advance Node.allTyping_nil)
      (ihBlock (hc.advance.advance.behind (behind_of_reads inner)))
  | allocation _ _ inner _ ihInner ihBlock =>
    intro hc
    have hbody := ihBlock (hc.advance.advance.behind (behind_of_reads inner))
    exact Node.untyped_of_children (by simp [Shape.tag])
      ((ihInner hc.advance.advance Node.allUntyped_nil).snoc hbody)
  | conditional _ test first _ ihTest ihFirst ihSecond =>
    intro hc
    have hc₁ := hc.advance.behind (behind_of_reads test)
    have hc₂ := hc₁.behind (behind_of_reads first)
    exact Node.untyped_of_children (by simp [Shape.tag])
      (((Node.allUntyped_nil.snoc (ihTest hc.advance)).snoc (ihFirst hc₁)).snoc (ihSecond hc₂))
  | parenthesised _ _ _ ih => exact fun hc => ih hc.advance
  | tuple _ inner _ ihInner ihRest =>
    intro hc
    have hfirst := ihInner hc.advance
    exact Node.untyped_of_children (by simp [Shape.tag])
      (ihRest (hc.advance.behind (behind_of_reads inner)) (Node.allUntyped_nil.snoc hfirst))
  | endComponents _ => exact fun _ => id
  | component _ one _ ihOne ihRest =>
    exact fun hc hb => ihRest (hc.advance.behind (behind_of_reads one)) (hb.snoc (ihOne hc.advance))
  | typedFormal name _ _ => exact fun hc => Node.typing_var (hc.isName name)
  | argument _ _ ih => exact fun hc => (ih hc).layers
  | endArguments _ => exact fun _ => id
  | lastArgument _ _ _ ih => exact fun hc hb => hb.snoc (ih hc)
  | nextArgument _ one _ _ ihOne ihRest =>
    exact fun hc hb => ihRest (hc.behind (behind_of_reads one)).advance (hb.snoc (ihOne hc))
  | endStatements _ => exact fun _ => id
  | statement _ one _ ihOne ihRest =>
    intro hc hb
    have hskip := hc.behind (Cursor.behind_skipSemicolons _)
    exact ihRest (hskip.behind (behind_of_reads one)) (hb.snoc (ihOne hskip))
  | block _ _ ih => exact fun hc => Numbering.untyped_block (ih hc.advance Node.allUntyped_nil)
  | noValue _ => exact fun _ => Node.untyped_const
  | value _ _ ih => exact fun hc => ih hc.advance
  | endInitialisers _ => exact fun _ => id
  | lastInitialiser _ _ _ ih =>
    exact fun hc hb => hb.snoc (Node.untyped_init (ih hc.advance))
  | nextInitialiser _ initial _ _ ihInitial ihRest =>
    intro hc hb
    have hc₁ := (hc.advance.behind (behind_of_reads initial)).advance
    exact ihRest hc₁ (hb.snoc (Node.untyped_init (ihInitial hc.advance)))
  | noOtherwise _ =>
    exact fun _ => Node.untyped_of_children (by simp [Shape.tag]) Node.allUntyped_nil
  | otherwise _ _ ih => exact fun hc => ih hc.advance

/-! ## Scripts -/

section Scripts

variable {c : Cursor}

theorem untyped_of_expr {d : Bool} {p : Parsed c.size Node} (h : expr d c = .ok p) (hc : c.Named) :
    p.rest.Behind c ∧ p.value.Untyped :=
  ⟨behind_of_reads (reads_of_expr h), typing_of_reads (reads_of_expr h) hc⟩

theorem behind_verbatim (c : Cursor) : c.verbatim.rest.Behind c := by
  unfold Cursor.verbatim
  split
  · exact c.behind_advance
  · exact .refl _

theorem untyped_of_hint {p : Parsed (c.size + 1) (Option Node × String)} (h : annotation c = .ok p)
    (hc : c.Named) : p.rest.Behind c ∧ ∀ k ∈ p.value.1, k.Untyped := by
  unfold annotation at h
  split at h
  · obtain ⟨hint, hhint, h⟩ := ok_of_bind h
    obtain ⟨close, hclose, h⟩ := ok_of_bind h
    obtain rfl := Except.ok.inj h
    obtain ⟨-, rfl⟩ := Cursor.of_symbol hclose
    obtain ⟨hbehind, huntyped⟩ := untyped_of_expr hhint hc.advance
    have hclosed := (behind_verbatim _).trans hint.rest.behind_advance
    refine ⟨hclosed.trans (hbehind.trans c.behind_advance), fun k hk => ?_⟩
    exact Option.mem_some.1 hk ▸ huntyped
  · obtain rfl := Except.ok.inj h
    exact ⟨.refl _, fun k hk => absurd hk (Option.not_mem_none k)⟩

/-- The terms and the hints of a proof chain carry no types. -/
structure Chain.Untyped (chain : Chain) : Prop where
  terms : Node.AllUntyped chain.terms
  hints : ∀ hint ∈ chain.hints, ∀ k ∈ hint, k.Untyped

theorem untyped_of_arrows {chain : Chain} : chain.Untyped → c.Named →
    ∀ {p : Parsed (c.size + 1) Chain}, arrows chain c = .ok p →
      p.rest.Behind c ∧ p.value.Untyped := by
  fun_induction arrows chain c with
  | case1 | case2 | case3 => intro _ _ p hp; contradiction
  | case4 chain c _ _ note hnote _ term hterm _ all hall _ ih =>
    intro hchain hc p hp
    obtain rfl := Except.ok.inj hp
    obtain ⟨hbehind, hhint⟩ := untyped_of_hint hnote hc.advance
    have hc₁ := hc.advance.behind hbehind
    obtain ⟨hbehind₁, huntyped⟩ := untyped_of_expr hterm hc₁
    have hhints : ∀ hint ∈ chain.hints ++ [note.value.1], ∀ k ∈ hint, k.Untyped :=
      List.forall_mem_append.2 ⟨hchain.hints, List.forall_mem_singleton.2 hhint⟩
    obtain ⟨hrest, hall⟩ := ih ⟨hchain.terms.snoc huntyped, hhints⟩ (hc₁.behind hbehind₁) hall
    exact ⟨hrest.trans (hbehind₁.trans (hbehind.trans c.behind_advance)), hall⟩
  | case5 =>
    intro hchain _ p hp
    obtain rfl := Except.ok.inj hp
    exact ⟨.refl _, hchain⟩

theorem untyped_of_chainFrom {first : Node} {p : Parsed (c.size + 1) Node}
    (h : chainFrom first c = .ok p) (hfirst : first.Untyped) (hc : c.Named) :
    p.rest.Behind c ∧ p.value.Untyped := by
  obtain ⟨chain, hchain, h⟩ := ok_of_bind h
  obtain rfl := Except.ok.inj h
  have hstart : Chain.Untyped { terms := [first], hints := [], verbatims := [],
                                span := first.span } :=
    ⟨Node.allUntyped_nil.snoc hfirst, List.forall_mem_nil _⟩
  obtain ⟨hbehind, huntyped⟩ := untyped_of_arrows hstart hc hchain
  refine ⟨hbehind, Node.untyped_of_children (by simp [Shape.tag]) ?_⟩
  refine List.forall_mem_append.2 ⟨huntyped.terms, fun k hk => ?_⟩
  obtain ⟨hint, hhint, hk⟩ := List.mem_filterMap.1 hk
  rcases List.mem_append.1 hhint with hhint | hnone
  · exact huntyped.hints hint hhint k hk
  · obtain rfl := List.mem_singleton.1 hnone
    exact absurd hk (Option.not_mem_none k)

theorem untyped_of_item {p : Parsed c.size Node} (h : item c = .ok p) (hc : c.Named) :
    p.rest.Behind c ∧ p.value.Untyped := by
  unfold item at h
  split at h
  · obtain ⟨all, hall, h⟩ := ok_of_bind h
    obtain rfl := Except.ok.inj h
    obtain ⟨condition, hcondition, hall⟩ := ok_of_bind hall
    obtain rfl := Except.ok.inj hall
    obtain ⟨hbehind, huntyped⟩ := untyped_of_expr hcondition hc.advance
    exact ⟨hbehind.trans c.behind_advance, Node.untyped_of_children (by simp [Shape.tag])
      (Node.allUntyped_nil.snoc huntyped)⟩
  split at h
  · obtain ⟨all, hall, h⟩ := ok_of_bind h
    obtain rfl := Except.ok.inj h
    obtain ⟨first, hfirst, hall⟩ := ok_of_bind hall
    split at hall
    · obtain ⟨chain, hchain, hall⟩ := ok_of_bind hall
      dsimp only at hall
      split at hall
      · obtain rfl := Except.ok.inj hall
        obtain ⟨hbehind, huntyped⟩ := untyped_of_expr hfirst hc.advance
        obtain ⟨hbehind₁, huntyped₁⟩ :=
          untyped_of_chainFrom hchain huntyped (hc.advance.behind hbehind)
        exact ⟨hbehind₁.trans (hbehind.trans c.behind_advance),
          Node.untyped_of_children (by simp [Shape.tag]) (Node.allUntyped_nil.snoc huntyped₁)⟩
      · contradiction
    · contradiction
  · obtain ⟨first, hfirst, h⟩ := ok_of_bind h
    obtain ⟨hbehind, huntyped⟩ := untyped_of_expr hfirst hc
    split at h
    · obtain ⟨chain, hchain, h⟩ := ok_of_bind h
      obtain rfl := Except.ok.inj h
      obtain ⟨hbehind₁, huntyped₁⟩ := untyped_of_chainFrom hchain huntyped (hc.behind hbehind)
      exact ⟨hbehind₁.trans hbehind, huntyped₁⟩
    · obtain rfl := Except.ok.inj h
      exact ⟨hbehind, huntyped⟩

theorem untyped_of_items : c.Named → ∀ {ns : List Node} {c' : Cursor},
    items c = .ok (ns, c') → Node.AllUntyped ns := by
  fun_induction items c with
  | case1 | case2 =>
    intro _ ns c' h
    obtain ⟨rfl, -⟩ := Prod.mk.inj (Except.ok.inj h)
    exact Node.allUntyped_nil
  | case3 | case4 => intro _ ns c' h; contradiction
  | case5 =>
    rename_i first hfirst _ rest _ hrest ih
    intro hc ns c' h
    obtain ⟨rfl, -⟩ := Prod.mk.inj (Except.ok.inj h)
    have hskip := hc.behind (Cursor.behind_skipSemicolons _)
    obtain ⟨hbehind, huntyped⟩ := untyped_of_item hfirst hskip
    exact List.forall_mem_cons.2 ⟨huntyped, ih (hskip.behind hbehind) hrest⟩

theorem untyped_of_script {tokens : List Token} {n : Node} (h : script tokens = .ok n)
    (hstart : (Cursor.start tokens).Named) : n.Untyped := by
  obtain ⟨⟨items, rest⟩, hitems, h⟩ := ok_of_bind h
  obtain rfl := Except.ok.inj h
  exact Node.untyped_of_children (by simp [Shape.tag]) (untyped_of_items hstart hitems)

theorem untyped_of_soleExpr {tokens : List Token} {n : Node} (h : soleExpr tokens = .ok n)
    (hstart : (Cursor.start tokens).Named) : n.Untyped := by
  obtain ⟨all, hall, h⟩ := ok_of_bind h
  split at h
  · obtain rfl := Except.ok.inj h
    exact (untyped_of_expr hall hstart).2
  · contradiction

end Scripts

end Grammar

/-! ## Source texts -/

/-- The names of a source text are names. -/
theorem Token.named_of_scan {source : String} {ts : List Token} (h : scan source = .ok ts) :
    (Cursor.start ts).Named := by
  intro t ht text hk
  have hspelled := (covering_of_scan h).spelled t ht
  rw [hk] at hspelled
  exact (Bool.and_eq_true_iff.1 hspelled.2).1

namespace Node

variable {source : String} {n : Node}

/-- In what is read, types stand nowhere but among the formals of methods and among the arguments of
calls that are written with a name. -/
theorem untyped_of_read (h : ofScript source = .ok n ∨ ofExpr source = .ok n) :
    n.isTyped = false ∧ n.Everywhere fun m => ∀ k ∈ m.shape.untyped, k.isTyped = false := by
  have huntyped : n.Untyped := by
    rcases h with h | h
    · obtain ⟨tokens, htokens, h⟩ := readWith_ok_iff.1 h
      exact Grammar.untyped_of_script h (Token.named_of_scan htokens)
    · obtain ⟨tokens, htokens, h⟩ := readWith_ok_iff.1 h
      exact Grammar.untyped_of_soleExpr h (Token.named_of_scan htokens)
  exact ⟨huntyped.root, huntyped.layers.imp fun _ h => h.untyped⟩

/-- A method with a typed formal, and below it a call with a typed argument. -/
theorem untyped_of_read_method : ∃ n, ofExpr "m(x: <*, *>) { f(y: *) + x }" = .ok n ∧
    n.isTyped = false ∧ n.Everywhere fun m => ∀ k ∈ m.shape.untyped, k.isTyped = false := by
  have hread : (ofExpr "m(x: <*, *>) { f(y: *) + x }").isOk = true := by decide +kernel
  cases hn : ofExpr "m(x: <*, *>) { f(y: *) + x }" with
  | error e => simp [hn, Except.isOk, Except.toBool] at hread
  | ok n => exact ⟨n, rfl, untyped_of_read (.inr hn)⟩

/-- Whether a node is a call of the function `name` with a single argument, a typed variable. -/
def callsTyped (name : String) (n : Node) : Bool :=
  match n.shape with
  | .call _ called [argument] => called == name && argument.isTyped
  | _ => false

theorem of_callsTyped {name : String} (h : n.callsTyped name = true) :
    ∃ receiver argument, n.shape = .call receiver name [argument] ∧ argument.isTyped = true := by
  unfold callsTyped at h
  split at h
  · next receiver called argument hs =>
    rw [Bool.and_eq_true, beq_iff_eq] at h
    exact ⟨receiver, argument, by rw [hs, h.1], h.2⟩
  · cases h

/-- The argument of this call is a variable with a type. -/
theorem typed_argument_of_read : ∃ n, ofExpr "f(x: *)" = .ok n ∧
    ∃ receiver argument, n.shape = .call receiver "f" [argument] ∧ argument.isTyped = true := by
  have hread : (ofExpr "f(x: *)").toOption.any (callsTyped "f") = true := by decide +kernel
  obtain ⟨n, hn, hcall⟩ := ok_of_any hread
  exact ⟨n, hn, of_callsTyped hcall⟩

end Node

end ProofScript
