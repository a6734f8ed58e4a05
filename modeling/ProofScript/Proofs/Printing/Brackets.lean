import ProofScript.Proofs.Printing.Operators
import ProofScript.Proofs.Printing.Types

/-!
# Printed lists

Every form of expression with brackets can be read back when its parts can: tuples, calls, method
declarations, allocations and conditionals. The members of a list are read one after the other, each
after the ones before.
-/

namespace ProofScript

open Grammar (Level Reads Follows Opens)
open Token (Kind)

theorem Expr.parts_eq_map (l : Level) (d : Bool) (es : List Expr) :
    Expr.parts l d es = es.map fun e => e.tokens l d := by
  induction es with
  | nil => rfl
  | cons e es ih => rw [parts, ih, List.map_cons, tokens]

theorem Expr.nodes_eq_map (es : List Expr) : Expr.nodes es = es.map Expr.node := by
  induction es with
  | nil => rfl
  | cons e es ih => rw [nodes, ih, List.map_cons]

theorem FieldInit.parts_eq_map (fs : List FieldInit) :
    FieldInit.parts fs = fs.map FieldInit.tokens := by
  induction fs with
  | nil => rfl
  | cons f fs ih => rw [parts, ih, List.map_cons]

theorem FieldInit.nodes_eq_map (fs : List FieldInit) :
    FieldInit.nodes fs = fs.map FieldInit.node := by
  induction fs with
  | nil => rfl
  | cons f fs ih => rw [nodes, ih, List.map_cons]

variable {d : Bool} {c : Cursor} {ks : List Kind}

/-! ## Tuples -/

/-- A comma or the closing bracket ends a component. -/
theorem follows_component (es : List Expr) (d : Bool) (ks : List Kind) :
    ∃ k us, (Expr.parts .sum d es).flatMap (fun part => Kind.symbol .comma :: part)
        ++ .symbol .greater :: ks = k :: us ∧
      Follows .sum d (some k) ∧ Level.sum.stops (some k) = true := by
  cases es with
  | nil =>
    refine ⟨_, _, rfl, ?_, rfl⟩
    cases d <;> decide
  | cons e es =>
    have hcomma : Grammar.Ending (some (Kind.symbol .comma)) := by simp [Grammar.Ending]
    exact ⟨_, _, rfl, hcomma.follows _ _, hcomma.stops _⟩

/-- An expression is read as a component of a tuple. -/
theorem Expr.Readable.component {e : Expr} (h : e.Readable) (es : List Expr)
    (hc : c.kinds = e.tokens .sum d ++ ((Expr.parts .sum d es).flatMap
      (fun part => Kind.symbol .comma :: part) ++ .symbol .greater :: ks)) :
    ∃ n c', n.bare = e.node ∧
      c'.kinds = (Expr.parts .sum d es).flatMap (fun part => Kind.symbol .comma :: part)
        ++ .symbol .greater :: ks ∧ Reads (.level .sum d n) c c' := by
  obtain ⟨k, us, hnext, hfollows, hstops⟩ := follows_component es d ks
  rw [hnext] at hc ⊢
  exact h.reads hc hfollows hstops

/-- Printed components with commas in front of them are read after the ones before. -/
theorem components_ok {es : List Expr} (h : ∀ e ∈ es, e.Readable) (before : List Node)
    (hc : c.kinds = (Expr.parts .sum d es).flatMap (fun part => Kind.symbol .comma :: part)
      ++ .symbol .greater :: ks) :
    ∃ ns close c', ns.map Node.bare = Expr.nodes es ∧ c'.kinds = ks ∧
      Reads (.components d before (before ++ ns) close) c c' := by
  induction es generalizing before c with
  | nil =>
    have hend : Reads (.components d before (before ++ []) c.span) c c.advance := by
      rw [List.append_nil]
      exact .endComponents (Cursor.kind?_of_kinds hc)
    exact ⟨[], _, _, rfl, Cursor.kinds_advance hc, hend⟩
  | cons e es ih =>
    obtain ⟨he, hes⟩ := List.forall_mem_cons.1 h
    rw [Expr.parts, List.flatMap_cons, List.cons_append, List.cons_append, List.append_assoc] at hc
    obtain ⟨n, c₁, hn, hks, hreads⟩ := he.component es (Cursor.kinds_advance hc)
    obtain ⟨ns, close, c', hns, hks', hrest⟩ := ih hes (before ++ [n]) hks
    rw [List.append_assoc, List.singleton_append] at hrest
    refine ⟨n :: ns, close, c', ?_, hks', .component (Cursor.kind?_of_kinds hc) hreads hrest⟩
    rw [List.map_cons, hn, hns, Expr.nodes]

theorem Expr.tuple_own {first : Expr} {rest : List Expr} (hf : first.Readable)
    (hr : ∀ e ∈ rest, e.Readable) : (tuple first rest).OwnReadable := by
  intro d c ks _ hc _
  simp only [own, commas_cons, List.cons_append, List.append_assoc, List.nil_append] at hc
  obtain ⟨n, c₁, hn, hks, hreads⟩ := hf.component rest (Cursor.kinds_advance hc)
  obtain ⟨ns, close, c', hns, hks', hrest⟩ := components_ok hr [n] hks
  have hopens : Opens .postfixed d c _ _ := fun _ _ hm =>
    .postfixed (.tuple (Cursor.kind?_of_kinds hc) hreads hrest) hm
  refine .of_opens hopens ?_ hks'
  rw [Node.bare_build, Shape.map, List.singleton_append, List.map_cons, hn, hns]
  rfl

/-! ## Arguments -/

/-- The tokens are an argument with the given tree, in front of a comma or a parenthesis. -/
structure IsArgument (ts : List Kind) (tree : Node) : Prop where
  opens : ∀ us, (ts ++ us).head? ≠ some (.symbol .closeParen)
  reads : ∀ {c : Cursor} {k : Kind} {ks : List Kind},
    k = .symbol .comma ∨ k = .symbol .closeParen → c.kinds = ts ++ k :: ks →
    ∃ n c', n.bare = tree ∧ c'.kinds = k :: ks ∧ Reads (.argument n) c c'

/-- A typed formal parameter has a colon behind its name. -/
theorem Grammar.atTypedFormal_of_second (h : c.kinds.tail.head? ≠ some (.symbol .colon)) :
    Grammar.atTypedFormal c = false := by
  have hsecond : c.advance.kind? = c.kinds.tail.head? := by
    rw [Cursor.kind?_eq, Cursor.kinds, Cursor.kinds, Cursor.advance, List.map_tail]
  unfold Grammar.atTypedFormal
  split
  · rw [Cursor.at?, hsecond]
    exact beq_false_of_ne h
  · rfl

/-- An expression is no typed formal parameter. -/
theorem Expr.Readable.isArgument {e : Expr} (h : e.Readable) :
    IsArgument (e.tokens .logic true) e.node where
  opens us := by
    rw [(e.tokens_starts .logic true).head_append]
    exact (e.tokens_starts .logic true).head_ne rfl
  reads := by
    intro c k ks hk hc
    have hending : Grammar.Ending (some k) := by
      rcases hk with rfl | rfl <;> simp [Grammar.Ending]
    obtain ⟨n, c', hn, hks, hreads⟩ := h.closed hending hc
    have hcolon : c.kinds.tail.head? ≠ some (.symbol .colon) := by
      rw [hc]
      refine ((e.tokens_starts .logic true).append ?_).second
      rcases hk with rfl | rfl <;> simp
    exact ⟨n, c', hn, hks, .argument (Grammar.atTypedFormal_of_second hcolon) hreads⟩

theorem arguments_ok {α : Type} {text : α → List Kind} {tree : α → Node} {xs : List α}
    (h : ∀ x ∈ xs, IsArgument (text x) (tree x)) (before : List Node)
    (hc : c.kinds = commas (xs.map text) ++ .symbol .closeParen :: ks) :
    ∃ ns close c', ns.map Node.bare = xs.map tree ∧ c'.kinds = ks ∧
      Reads (.arguments before (before ++ ns) close) c c' := by
  -- A comma may follow the last argument, so whether one is the last is seen behind it.
  induction xs generalizing before c with
  | nil =>
    have hend : Reads (.arguments before (before ++ []) c.span) c c.advance := by
      rw [List.append_nil]
      exact .endArguments (Cursor.kind?_of_kinds hc)
    exact ⟨[], _, _, rfl, Cursor.kinds_advance hc, hend⟩
  | cons x xs ih =>
    obtain ⟨hx, hxs⟩ := List.forall_mem_cons.1 h
    have hopen : c.kind? ≠ some (.symbol .closeParen) := by
      rw [c.kind?_eq, hc, List.map_cons, commas_cons, List.append_assoc]
      exact hx.opens _
    cases xs with
    | nil =>
      have hc' : c.kinds = text x ++ .symbol .closeParen :: ks := by
        simpa [commas] using hc
      obtain ⟨n, c₁, hn, hks, hreads⟩ := hx.reads (.inr rfl) hc'
      refine ⟨[n], _, _, ?_, Cursor.kinds_advance hks,
        .lastArgument hopen hreads (Cursor.kind?_of_kinds hks)⟩
      rw [List.map_singleton, hn, List.map_singleton]
    | cons y ys =>
      have hc' : c.kinds = text x ++ .symbol .comma ::
          (commas ((y :: ys).map text) ++ .symbol .closeParen :: ks) := by
        simpa [commas] using hc
      obtain ⟨n, c₁, hn, hks, hreads⟩ := hx.reads (.inl rfl) hc'
      obtain ⟨ns, close, c', hns, hks', hrest⟩ := ih hxs (before ++ [n]) (Cursor.kinds_advance hks)
      rw [List.append_assoc, List.singleton_append] at hrest
      refine ⟨n :: ns, close, c', ?_, hks',
        .nextArgument hopen hreads (Cursor.kind?_of_kinds hks) hrest⟩
      rw [List.map_cons, hn, hns]
      rfl

/-! ## Calls -/

namespace Expr

theorem call_own (name : String) {args : List Expr} (h : ∀ a ∈ args, a.Readable) :
    (call name args).OwnReadable := by
  intro d c ks _ hc hf
  simp only [own, parts_eq_map, List.cons_append, List.append_assoc, List.nil_append] at hc
  have hparen := Cursor.kinds_advance hc
  obtain ⟨ns, close, c', hns, hks, hreads⟩ :=
    arguments_ok (fun a ha => (h a ha).isArgument) [] (Cursor.kinds_advance hparen)
  have hbrace : ¬(d = true ∧ c'.kind? = some (.symbol .openBrace)) := by
    rintro ⟨hd, hbrace⟩
    rw [c'.kind?_eq, hks] at hbrace
    exact hf.brace hd hbrace
  have hopens : Opens .postfixed d c _ _ := fun _ _ hm =>
    .postfixed (.call (Cursor.kind?_of_kinds hc) (Cursor.kind?_of_kinds hparen) hreads hbrace) hm
  refine .of_opens hopens ?_ hks
  refine (Node.bare_call _ _ _ _).trans ?_
  rw [List.nil_append, hns, node, nodes_eq_map]

theorem invoke_own {object : Expr} (ho : object.Readable) (name : String) {args : List Expr}
    (h : ∀ a ∈ args, a.Readable) : (invoke object name args).OwnReadable := by
  intro d c ks _ hc hf
  simp only [own, parts_eq_map, List.append_assoc] at hc
  obtain ⟨n, id, place, old, c₁, hn, hnil, -, hks₁, hopens₁⟩ := opens_field ho hc
  obtain ⟨ns, close, c₂, hns, hks, hreads⟩ :=
    arguments_ok (fun a ha => (h a ha).isArgument) [] (Cursor.kinds_advance hks₁)
  have hallowed : Numbering.memberCall (.mk id place (.compound n name old)) ns close =
      .ok (.mk id (place.join close) (.call n name ns)) := by
    simp only [Numbering.memberCall, Node.shape, hnil, if_true]
    rfl
  have hopens := hopens₁.memberCall (Cursor.kind?_of_kinds hks₁) rfl hreads hallowed
  refine .of_opens hopens ?_ hks
  rw [Node.bare_mk, Shape.map, hn, hns, node, nodes_eq_map]

end Expr

end ProofScript
