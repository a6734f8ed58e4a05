import Mathlib.Data.List.Nodup
import ProofScript.Proofs.Grammar.WellFormed

/-!
# Nodes that are read have identities of their own

No two nodes of a tree that is read have the same identity, and none is detached
(`distinct_of_read`). An index, an argument list and a sign take a node apart and use its identity
again, so it is not enough that a number which is drawn is a new one.

What a piece of the reading does is said without looking at where its numbers come from: it
`Carries` some identities, those of the nodes it is given, to others, those of the nodes it returns,
when these are distinct again beside any other identities that were distinct before.
-/

namespace ProofScript

/-- The identity of a node as a machine word. The largest word is the one of detached nodes. -/
def NodeId.word : NodeId → UInt32
  | numbered n => UInt32.ofNat n
  | detached => UInt32.ofNat (UInt32.size - 1)

namespace Node

/-- The identities of the nodes of a tree. -/
def ids (n : Node) : List NodeId := n.preorder.map id

theorem ids_mk (i : NodeId) (span : Span) (s : Shape Node) :
    (mk i span s).ids = i :: s.children.flatMap ids := by
  rw [ids, preorder_mk, List.map_cons, List.map_flatMap]
  rfl

theorem ids_of_shape {n : Node} {s : Shape Node} (h : n.shape = s) :
    n.ids = n.id :: s.children.flatMap ids := by
  subst h
  cases n
  exact ids_mk ..


theorem flatMap_ids_pair (n m : Node) : [n, m].flatMap ids = n.ids ++ m.ids := by
  rw [List.flatMap_cons, List.flatMap_singleton]

theorem flatMap_ids_snoc (ns : List Node) (n : Node) :
    (ns ++ [n]).flatMap ids = ns.flatMap ids ++ n.ids := by
  rw [List.flatMap_append, List.flatMap_singleton]

end Node

/-! ## Identities that have been drawn -/

/-- Distinct identities, which are numbers below `next`. -/
structure Drawn (next : Nat) (is : List NodeId) : Prop where
  /-- The identities are distinct. -/
  nodup : is.Nodup
  /-- Each of them is a number that has been drawn. -/
  below : ∀ i ∈ is, ∃ k < next, i = .numbered k

/-- While the numbers from `next` to `next'` are drawn, the identities `is` are replaced by `js`.
All identities stay distinct, those of the nodes that are set aside in the meantime (`others`)
included. -/
def Carries (next next' : Nat) (is js : List NodeId) : Prop :=
  ∀ others, Drawn next (others ++ is) → Drawn next' (others ++ js)

variable {next next' next'' : Nat} {is js ks : List NodeId}

theorem drawn_nil : Drawn next [] := ⟨List.nodup_nil, fun _ h => absurd h List.not_mem_nil⟩

/-- The next number is a new one. -/
theorem Drawn.draw (h : Drawn next is) : Drawn (next + 1) (.numbered next :: is) := by
  refine ⟨List.nodup_cons.2 ⟨fun hmem => ?_, h.nodup⟩, List.forall_mem_cons.2 ⟨?_, fun i hi => ?_⟩⟩
  · obtain ⟨k, hk, heq⟩ := h.below _ hmem
    obtain rfl := NodeId.numbered.inj heq
    exact Nat.lt_irrefl _ hk
  · exact ⟨next, Nat.lt_succ_self _, rfl⟩
  · obtain ⟨k, hk, rfl⟩ := h.below i hi
    exact ⟨k, Nat.lt_succ_of_lt hk, rfl⟩

/-- Identities may be put in another order, or dropped. -/
theorem Drawn.of_count (h : Drawn next is) (hcount : ∀ i, js.count i ≤ is.count i) :
    Drawn next js := by
  refine ⟨List.nodup_iff_count_le_one.2 fun i => ?_, fun i hi => h.below i ?_⟩
  · exact Nat.le_trans (hcount i) (List.nodup_iff_count_le_one.1 h.nodup i)
  · exact List.count_pos_iff.1 (Nat.lt_of_lt_of_le (List.count_pos_iff.2 hi) (hcount i))

namespace Carries

theorem refl : Carries next next is is := fun _ h => h

theorem trans (h : Carries next next' is js) (h' : Carries next' next'' js ks) :
    Carries next next'' is ks := fun others hall => h' others (h others hall)

theorem of_count (h : ∀ i, js.count i ≤ is.count i) : Carries next next is js := by
  intro others hall
  refine hall.of_count fun i => ?_
  rw [List.count_append, List.count_append]
  exact Nat.add_le_add_left (h i) _

theorem draw : Carries next (next + 1) is (.numbered next :: is) := by
  intro others hall
  refine hall.draw.of_count fun i => ?_
  simp only [List.count_append, List.count_cons]
  omega

/-- Identities that are not looked at stay as they are. -/
theorem behind (h : Carries next next' is js) : Carries next next' (ks ++ is) (ks ++ js) := by
  intro others hall
  rw [← List.append_assoc] at hall ⊢
  exact h _ hall

theorem beside (h : Carries next next' [] js) : Carries next next' is (is ++ js) := by
  have hall : Carries next next' (is ++ []) (is ++ js) := h.behind
  rwa [List.append_nil] at hall

theorem single {n : Node} (h : Carries next next' [] n.ids) :
    Carries next next' [] ([n].flatMap Node.ids) := by
  rwa [List.flatMap_singleton]

/-- One more node at the end of a list. -/
theorem snoc {ns : List Node} {n : Node} (h : Carries next next' [] n.ids) :
    Carries next next' (ns.flatMap Node.ids) ((ns ++ [n]).flatMap Node.ids) := by
  rw [Node.flatMap_ids_snoc]
  exact h.beside

end Carries

/-! ## The nodes that are built -/

namespace Numbering

variable {span place : Span} {n m : Node} {args : List Node}

theorem carries_node {s : Shape Node} (h : s.children.flatMap Node.ids = is) :
    Carries next ((node span s).run next).2 is ((node span s).run next).1.ids := by
  subst h
  exact (Node.ids_mk ..).symm ▸ Carries.draw

theorem ids_nil : ((nil span).run next).1.ids = [.numbered next] := Node.ids_mk ..

theorem carries_nil : Carries next ((nil span).run next).2 [] ((nil span).run next).1.ids :=
  carries_node rfl

theorem carries_call {name : String} :
    Carries next ((call span name args).run next).2 (args.flatMap Node.ids)
      ((call span name args).run next).1.ids := by
  have hreceiver : Carries next (next + 1) (args.flatMap Node.ids)
      (((nil span).run next).1 :: args |>.flatMap Node.ids) :=
    Carries.draw
  exact hreceiver.trans (carries_node rfl)

theorem carries_binary {op : String} :
    Carries next ((binary op n m).run next).2 (n.ids ++ m.ids)
      ((binary op n m).run next).1.ids := by
  rw [← Node.flatMap_ids_pair]
  exact carries_call

/-- A sign that becomes part of a constant draws no number. -/
theorem carries_unary {op : Symbol} :
    Carries next ((unary op place n).run next).2 n.ids ((unary op place n).run next).1.ids := by
  have hsigned : ∀ {v w}, n.shape = .const v →
      Carries next next n.ids (Node.mk n.id (place.join n.span) (.const w)).ids := by
    intro v w hs
    rw [Node.ids_of_shape hs, Node.ids_mk]
    exact .refl
  unfold unary
  dsimp only
  split
  · exact hsigned ‹_›
  · next hs =>
    rw [hs]
    exact hsigned hs
  · have hargs : [n].flatMap Node.ids = n.ids := List.flatMap_singleton ..
    exact hargs ▸ carries_call

theorem carries_field {name : String} :
    Carries next ((field n name place).run next).2 n.ids ((field n name place).run next).1.ids := by
  have hindex : Carries next (next + 1) n.ids
      (n.ids ++ ((nil (n.span.join place)).run next).1.ids) :=
    carries_nil.beside
  exact hindex.trans (carries_node (Node.flatMap_ids_pair ..))

/-- An indexed access has the identity of the access without an index, or of the name. The index
that it replaces is dropped. -/
theorem carries_index {make : Numbering Node} (h : index n m place = .ok make) :
    Carries next (make.run next).2 (n.ids ++ m.ids) (make.run next).1.ids := by
  unfold index at h
  dsimp only at h
  split at h
  · next object name old hs =>
    split at h
    · obtain rfl := Except.ok.inj h
      refine .of_count fun i => ?_
      show (Node.mk n.id _ (.compound object name m)).ids.count i ≤ _
      rw [Node.ids_mk, Node.ids_of_shape hs]
      simp only [Shape.children, List.flatMap_cons, List.count_append, List.count_cons]
      omega
    · contradiction
  · next name type hs =>
    obtain rfl := Except.ok.inj h
    refine Carries.draw.trans (.of_count fun i => ?_)
    show (Node.mk n.id _ (.compound ((nil n.span).run next).1 name m)).ids.count i ≤ _
    rw [Node.ids_mk, Node.ids_of_shape hs]
    simp only [Shape.children, Node.flatMap_ids_pair, ids_nil, List.flatMap_nil, List.count_append,
      List.count_cons, List.count_nil]
    omega
  · contradiction

/-- A call of a method has the identity of the access to the method. -/
theorem carries_memberCall {call : Node} (h : memberCall n args place = .ok call) :
    Carries next next (n.ids ++ args.flatMap Node.ids) call.ids := by
  unfold memberCall at h
  dsimp only at h
  split at h
  · next receiver name i hs =>
    split at h
    · obtain rfl := Except.ok.inj h
      refine .of_count fun i => ?_
      rw [Node.ids_mk, Node.ids_of_shape hs]
      simp only [Shape.children, List.flatMap_cons, List.count_append, List.count_cons]
      omega
    · contradiction
  · contradiction

theorem carries_sequence : ∀ {n : Node} {next : Nat},
    Carries next ((sequence n args).run next).2 ((n :: args).flatMap Node.ids)
      ((sequence n args).run next).1.ids := by
  induction args with
  | nil =>
    intro n next
    rw [List.flatMap_singleton]
    exact .refl
  | cons m args ih =>
    intro n next
    have htail : Carries next ((sequence m args).run next).2 ((n :: m :: args).flatMap Node.ids)
        (n.ids ++ ((sequence m args).run next).1.ids) := by
      rw [List.flatMap_cons]
      exact ih.behind
    exact htail.trans (carries_node (Node.flatMap_ids_pair ..))

theorem carries_block :
    Carries next ((block span args).run next).2 (args.flatMap Node.ids)
      ((block span args).run next).1.ids := by
  cases args with
  | nil => exact carries_node rfl
  | cons n args => exact carries_sequence

end Numbering

namespace Grammar

/-! ## Types -/

theorem nextId_iterate (k : Nat) (c : Cursor) : (Cursor.advance^[k] c).nextId = c.nextId := by
  induction k with
  | zero => rfl
  | succ k ih => rwa [Function.iterate_succ_apply']

/-- A reader of types draws no numbers. -/
theorem nextId_type {c : Cursor} {t : Parsed c.size VarType} (h : type c = .ok t) :
    t.rest.nextId = c.nextId := by
  obtain ⟨k, hk⟩ := advances_type h
  rw [hk, nextId_iterate]

/-! ## Expressions -/

/-- What a phrase builds has distinct identities, given that what it continues has. -/
def Phrase.Carries (next next' : Nat) : Phrase → Prop
  | .level _ _ n | .primary _ n | .argument n | .initialValue _ n | .block n | .otherwise _ n =>
    ProofScript.Carries next next' [] n.ids
  | .operators _ _ base n | .accessors base n => ProofScript.Carries next next' base.ids n.ids
  | .statements before all _ | .arguments before all _ | .components _ before all _
  | .initialisers before all =>
    ProofScript.Carries next next' (before.flatMap Node.ids) (all.flatMap Node.ids)

theorem carries_of_reads {p : Phrase} {c c' : Cursor} (h : Reads p c c') :
    p.Carries c.nextId c'.nextId := by
  -- What has been read already is set aside while an operand, a member of a list or a block is
  -- read.
  induction h with
  | operands _ _ _ first rest => exact first.trans rest
  | noOperator _ => exact .refl
  | operator _ _ _ operand rest =>
    exact operand.beside.trans (Numbering.carries_binary.trans rest)
  | unassigned _ _ target => exact target
  | assigned _ _ _ _ _ left right =>
    exact left.trans (right.beside.trans (Numbering.carries_node (Node.flatMap_ids_pair ..)))
  | uncompared _ _ sum => exact sum
  | compared _ _ _ _ first second =>
    exact first.trans (second.beside.trans Numbering.carries_binary)
  | unsigned _ _ postfixed => exact postfixed
  | signed _ _ operand => exact operand.trans Numbering.carries_unary
  | postfixed _ _ primary accessors => exact primary.trans accessors
  | noAccessor _ _ _ => exact .refl
  | field _ _ _ rest => exact Numbering.carries_field.trans rest
  | index _ _ _ ok _ inner rest =>
    exact inner.beside.trans ((Numbering.carries_index ok).trans rest)
  | memberCall _ _ _ ok _ inner rest =>
    exact inner.beside.trans ((Numbering.carries_memberCall ok).trans rest)
  | number _ => exact Numbering.carries_node rfl
  | name _ _ => exact Numbering.carries_node rfl
  | call _ _ _ _ inner => exact inner.trans Numbering.carries_call
  | method _ _ _ _ _ _ inner block =>
    exact inner.trans (block.beside.trans (Numbering.carries_node (Node.flatMap_ids_snoc ..)))
  | allocation _ _ _ _ inner block =>
    exact inner.trans (block.beside.trans (Numbering.carries_node (Node.flatMap_ids_snoc ..)))
  | conditional _ _ _ _ test first second =>
    refine test.trans (first.beside.trans (second.beside.trans (Numbering.carries_node ?_)))
    simp [Shape.children]
  | parenthesised _ _ _ inner => exact inner
  | tuple _ _ _ inner rest =>
    exact inner.single.trans (rest.trans (Numbering.carries_node rfl))
  | endComponents _ => exact .refl
  | component _ _ _ one rest => exact one.snoc.trans rest
  | @typedFormal _ c t _ _ type =>
    have htype : ProofScript.Carries c.nextId t.rest.nextId [] [] := by
      rw [nextId_type type]
      exact .refl
    exact htype.trans (Numbering.carries_node rfl)
  | argument _ _ expr => exact expr
  | endArguments _ => exact .refl
  | lastArgument _ _ _ one => exact one.snoc
  | nextArgument _ _ _ _ one rest => exact one.snoc.trans rest
  | endStatements _ => exact .refl
  | statement _ _ _ one rest => exact one.snoc.trans rest
  | block _ _ inner => exact inner.trans Numbering.carries_block
  | noValue _ => exact Numbering.carries_nil
  | value _ _ expr => exact expr
  | endInitialisers _ => exact .refl
  | lastInitialiser _ _ _ initial =>
    exact (initial.trans (Numbering.carries_node (List.flatMap_singleton ..))).snoc
  | nextInitialiser _ _ _ _ initial rest =>
    exact (initial.trans (Numbering.carries_node (List.flatMap_singleton ..))).snoc.trans rest
  | noOtherwise _ => exact Numbering.carries_node rfl
  | otherwise _ _ block => exact block

theorem carries_of_expr {d : Bool} {c : Cursor} {p : Parsed c.size Node} (h : expr d c = .ok p) :
    ProofScript.Carries c.nextId p.rest.nextId [] p.value.ids :=
  carries_of_reads (reads_of_expr h)

/-! ## Proof chains -/

/-- The identities of the nodes of a proof chain while it is read. -/
def Chain.ids (chain : Chain) : List NodeId :=
  (chain.terms ++ chain.hints.filterMap id).flatMap Node.ids

theorem nextId_verbatim (c : Cursor) : c.verbatim.rest.nextId = c.nextId := by
  unfold Cursor.verbatim
  split <;> rfl

theorem carries_of_hint {c : Cursor} {p : Parsed (c.size + 1) (Option Node × String)}
    (h : annotation c = .ok p) :
    ProofScript.Carries c.nextId p.rest.nextId [] (p.value.1.toList.flatMap Node.ids) := by
  unfold annotation at h
  split at h
  · obtain ⟨hint, hhint, h⟩ := ok_of_bind h
    obtain ⟨close, hclose, h⟩ := ok_of_bind h
    obtain rfl := Except.ok.inj h
    obtain ⟨-, rfl⟩ := Cursor.of_symbol hclose
    show ProofScript.Carries c.nextId hint.rest.advance.verbatim.rest.nextId [] _
    rw [nextId_verbatim]
    exact (carries_of_expr hhint).single
  · obtain rfl := Except.ok.inj h
    exact .refl

theorem carries_of_arrows {chain : Chain} {c : Cursor} :
    ∀ {p : Parsed (c.size + 1) Chain}, arrows chain c = .ok p →
      ProofScript.Carries c.nextId p.rest.nextId chain.ids p.value.ids := by
  fun_induction arrows chain c with
  | case1 => intro p hp; contradiction
  | case2 => intro p hp; contradiction
  | case3 => intro p hp; contradiction
  | case4 chain c ht _ note hn _ term hterm _ all hall _ ih =>
    intro p hp
    obtain rfl := Except.ok.inj hp
    have hnote : ProofScript.Carries c.nextId note.rest.nextId chain.ids
        (chain.ids ++ note.value.1.toList.flatMap Node.ids) := (carries_of_hint hn).beside
    have hread := hnote.trans (carries_of_expr hterm).beside
    refine hread.trans (.trans (.of_count fun i => ?_) (ih hall))
    -- The term stands behind the other terms, and in front of the hints.
    have hhint : [note.value.1].filterMap id = note.value.1.toList := by
      cases note.value.1 <;> rfl
    simp only [Chain.ids, List.filterMap_append, hhint, List.flatMap_append, List.count_append,
      List.flatMap_singleton]
    omega
  | case5 chain c ht =>
    intro p hp
    obtain rfl := Except.ok.inj hp
    exact .refl

theorem carries_of_chainFrom {first : Node} {c : Cursor} {p : Parsed (c.size + 1) Node}
    (h : chainFrom first c = .ok p) :
    ProofScript.Carries c.nextId p.rest.nextId first.ids p.value.ids := by
  obtain ⟨chain, hchain, h⟩ := ok_of_bind h
  obtain rfl := Except.ok.inj h
  have hstart : Chain.ids { terms := [first], hints := [], verbatims := [], span := first.span } =
      first.ids := List.flatMap_singleton ..
  rw [← hstart]
  exact (carries_of_arrows hchain).trans
    (Numbering.carries_node (by simp [Shape.children, Chain.ids]))

/-! ## Scripts -/

theorem carries_of_assumption {place : Span} {c : Cursor} {p : Parsed c.size Node}
    (h : assumption place c = .ok p) :
    ProofScript.Carries c.nextId p.rest.nextId [] p.value.ids := by
  obtain ⟨first, hfirst, h⟩ := ok_of_bind h
  split at h
  · obtain ⟨chain, hchain, h⟩ := ok_of_bind h
    dsimp only at h
    split at h
    · obtain rfl := Except.ok.inj h
      exact (carries_of_expr hfirst).trans
        ((carries_of_chainFrom hchain).trans (Numbering.carries_node (List.flatMap_singleton ..)))
    · contradiction
  · contradiction

theorem carries_of_statementOrChain {c : Cursor} {p : Parsed c.size Node}
    (h : statementOrChain c = .ok p) :
    ProofScript.Carries c.nextId p.rest.nextId [] p.value.ids := by
  obtain ⟨first, hfirst, h⟩ := ok_of_bind h
  split at h
  · obtain ⟨chain, hchain, h⟩ := ok_of_bind h
    obtain rfl := Except.ok.inj h
    exact (carries_of_expr hfirst).trans (carries_of_chainFrom hchain)
  · obtain rfl := Except.ok.inj h
    exact carries_of_expr hfirst

theorem carries_of_item {c : Cursor} {p : Parsed c.size Node} (h : item c = .ok p) :
    ProofScript.Carries c.nextId p.rest.nextId [] p.value.ids := by
  unfold item at h
  split at h
  · obtain ⟨all, hall, h⟩ := ok_of_bind h
    obtain rfl := Except.ok.inj h
    obtain ⟨condition, hcondition, hall⟩ := ok_of_bind hall
    obtain rfl := Except.ok.inj hall
    exact (carries_of_expr hcondition).trans (Numbering.carries_node (List.flatMap_singleton ..))
  · split at h
    · obtain ⟨all, hall, h⟩ := ok_of_bind h
      obtain rfl := Except.ok.inj h
      exact (carries_of_assumption hall :)
    · exact carries_of_statementOrChain h

theorem carries_of_items {c : Cursor} : ∀ {ns : List Node} {c' : Cursor},
    items c = .ok (ns, c') → ProofScript.Carries c.nextId c'.nextId [] (ns.flatMap Node.ids) := by
  fun_induction items c with
  | case1 | case2 =>
    intro ns c' h
    obtain ⟨rfl, rfl⟩ := Prod.mk.inj (Except.ok.inj h)
    exact .refl
  | case3 | case4 => intro ns c' h; contradiction
  | case5 =>
    rename_i first hfirst _ rest _ hrest ih
    intro ns c' h
    obtain ⟨rfl, rfl⟩ := Prod.mk.inj (Except.ok.inj h)
    exact (carries_of_item hfirst).trans (ih hrest).beside

/-- How many numbers are drawn while a script is read. Its root draws the last one. -/
def drawnByScript (tokens : List Token) : Nat :=
  match items (Cursor.start tokens) with
  | .ok (_, rest) => rest.nextId + 1
  | .error _ => 0

/-- How many numbers are drawn while a single expression is read. -/
def drawnByExpr (tokens : List Token) : Nat :=
  match expr true (Cursor.start tokens) with
  | .ok all => all.rest.nextId
  | .error _ => 0

theorem drawn_of_script {tokens : List Token} {n : Node} (h : script tokens = .ok n) :
    Drawn (drawnByScript tokens) n.ids := by
  obtain ⟨⟨items, rest⟩, hitems, h⟩ := ok_of_bind h
  obtain rfl := Except.ok.inj h
  rw [drawnByScript, hitems]
  exact (carries_of_items hitems).trans (Numbering.carries_node rfl) [] drawn_nil

theorem drawn_of_soleExpr {tokens : List Token} {n : Node} (h : soleExpr tokens = .ok n) :
    Drawn (drawnByExpr tokens) n.ids := by
  obtain ⟨all, hall, h⟩ := ok_of_bind h
  split at h
  · obtain rfl := Except.ok.inj h
    rw [drawnByExpr, hall]
    exact carries_of_expr hall [] drawn_nil
  · contradiction

end Grammar

/-! ## Source texts -/

/-- As long as the numbers are below the largest word, identities stay distinct as words. -/
theorem Drawn.words (h : Drawn next is) (hnext : next < UInt32.size - 1) :
    (is.map NodeId.word).Nodup ∧ NodeId.detached.word ∉ is.map NodeId.word := by
  have hword : ∀ i ∈ is, ∃ k < next, i = .numbered k ∧ i.word.toNat = k := by
    intro i hi
    obtain ⟨k, hk, rfl⟩ := h.below i hi
    exact ⟨k, hk, rfl, UInt32.toNat_ofNat_of_lt (by omega)⟩
  constructor
  · refine List.Nodup.map_on (fun i hi j hj hij => ?_) h.nodup
    obtain ⟨k, -, rfl, hk⟩ := hword i hi
    obtain ⟨l, -, rfl, hl⟩ := hword j hj
    rw [← hk, ← hl, hij]
  · intro hmem
    obtain ⟨i, hi, hi'⟩ := List.mem_map.1 hmem
    obtain ⟨k, hk, -, hvalue⟩ := hword i hi
    have hlargest : NodeId.detached.word.toNat = UInt32.size - 1 := rfl
    rw [hi', hlargest] at hvalue
    omega

namespace Node

variable {source : String} {n : Node} {drawn : Nat}

/-- How many numbers are drawn while a text is read. -/
def drawnWith (count : List Token → Nat) (source : String) : Nat :=
  match Token.scan source with
  | .ok tokens => count tokens
  | .error _ => 0

theorem drawn_of_read
    (h : ofScript source = .ok n ∧ drawn = drawnWith Grammar.drawnByScript source ∨
      ofExpr source = .ok n ∧ drawn = drawnWith Grammar.drawnByExpr source) :
    Drawn drawn n.ids := by
  rcases h with ⟨h, rfl⟩ | ⟨h, rfl⟩
  · obtain ⟨tokens, htokens, h⟩ := readWith_ok_iff.1 h
    rw [drawnWith, htokens]
    exact Grammar.drawn_of_script h
  · obtain ⟨tokens, htokens, h⟩ := readWith_ok_iff.1 h
    rw [drawnWith, htokens]
    exact Grammar.drawn_of_soleExpr h

/-- The nodes of a tree that is read, those that stand in for absent parts included, have distinct
identities, and none of them is detached. This is so for the machine words, too, as long as the
numbers that are drawn stay below the largest word. -/
theorem distinct_of_read
    (h : ofScript source = .ok n ∧ drawn = drawnWith Grammar.drawnByScript source ∨
      ofExpr source = .ok n ∧ drawn = drawnWith Grammar.drawnByExpr source) :
    n.ids.Nodup ∧ .detached ∉ n.ids ∧ (drawn < UInt32.size - 1 →
      (n.ids.map NodeId.word).Nodup ∧ NodeId.detached.word ∉ n.ids.map NodeId.word) := by
  have hdrawn := drawn_of_read h
  refine ⟨hdrawn.nodup, fun hmem => ?_, hdrawn.words⟩
  obtain ⟨k, -, hk⟩ := hdrawn.below _ hmem
  cases hk

/-- An indexed name, a method call, a sign, a hint, and parts that are absent. -/
theorem distinct_of_read_reused :
    let source := "new (f) { m(x) { if f[-1] { o.m(+2).g[i] } } } ~ [g(1)] a.f[-i] = <a, !b>"
    ∃ n, ofScript source = .ok n ∧ drawnWith Grammar.drawnByScript source < UInt32.size - 1 ∧
      (n.ids.map NodeId.word).Nodup ∧ NodeId.detached.word ∉ n.ids.map NodeId.word := by
  intro source
  obtain ⟨n, hn, -⟩ := ok_of_any (x := ofScript source) (p := fun _ => true) (by decide +kernel)
  have hdrawn : drawnWith Grammar.drawnByScript source < UInt32.size - 1 := by decide +kernel
  obtain ⟨-, -, hwords⟩ := distinct_of_read (.inl ⟨hn, rfl⟩)
  exact ⟨n, hn, hdrawn, hwords hdrawn⟩

end Node

end ProofScript
