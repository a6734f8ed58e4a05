import ProofScript.Proofs.Printing.Brackets

/-!
# Printed blocks

Every form of expression with a block can be read back when its parts can: allocations, method
declarations and conditionals. The semicolons between the statements of a block are skipped, and no
expression starts with one.
-/

namespace ProofScript

open Grammar (Level Reads Follows Opens)
open Token (Kind)

variable {d : Bool} {c : Cursor} {ks : List Kind}

/-! ## Statements -/

theorem Starts.dropWhile_append {l : Level} {ts : List Kind} (h : Starts l ts) (us : List Kind) :
    (ts ++ us).dropWhile (· == .symbol .semicolon) = ts ++ us := by
  have hne : ts.head? ≠ some (.symbol .semicolon) := h.head_ne rfl
  obtain ⟨⟨k, hk, -⟩, -⟩ := h
  cases ts with
  | nil => cases hk
  | cons k ts => exact List.dropWhile_cons_of_neg (by simpa using hne)

/-- A semicolon or the closing brace ends a statement. -/
theorem ending_statement (es : List Expr) (ks : List Kind) :
    ∃ k us, (Expr.parts .logic true es).flatMap (fun part => Kind.symbol .semicolon :: part)
      ++ .symbol .closeBrace :: ks = k :: us ∧ Grammar.Ending (some k) := by
  cases es with
  | nil => exact ⟨_, _, rfl, by simp [Grammar.Ending]⟩
  | cons e es => exact ⟨_, _, rfl, by simp [Grammar.Ending]⟩

/-- No statement starts with a semicolon. -/
theorem skip_statements (es : List Expr) (ks : List Kind) :
    ((Expr.parts .logic true es).flatMap (fun part => Kind.symbol .semicolon :: part)
      ++ .symbol .closeBrace :: ks).dropWhile (· == .symbol .semicolon) =
    semicolons (Expr.parts .logic true es) ++ .symbol .closeBrace :: ks := by
  cases es with
  | nil => rfl
  | cons e es =>
    rw [Expr.parts, semicolons_cons, List.flatMap_cons, List.append_assoc, List.append_assoc]
    refine (List.dropWhile_cons_of_pos (by simp)).trans ?_
    exact (e.tokens_starts .logic true).dropWhile_append _

/-- Printed statements are read after the ones before. -/
theorem statements_ok {es : List Expr} (h : ∀ e ∈ es, e.Readable) (before : List Node)
    (hc : c.skipSemicolons.kinds =
      semicolons (Expr.parts .logic true es) ++ .symbol .closeBrace :: ks) :
    ∃ ns close c', ns.map Node.bare = Expr.nodes es ∧ c'.kinds = ks ∧
      Reads (.statements before (before ++ ns) close) c c' := by
  induction es generalizing before c with
  | nil =>
    have hend : Reads (.statements before (before ++ []) c.skipSemicolons.span) c
        c.skipSemicolons.advance := by
      rw [List.append_nil]
      exact .endStatements (Cursor.kind?_of_kinds hc)
    exact ⟨[], _, _, rfl, Cursor.kinds_advance hc, hend⟩
  | cons e es ih =>
    obtain ⟨he, hes⟩ := List.forall_mem_cons.1 h
    rw [Expr.parts, semicolons_cons, List.append_assoc] at hc
    have hopen : c.skipSemicolons.kind? ≠ some (.symbol .closeBrace) := by
      rw [Cursor.kind?_eq, hc]
      exact (e.tokens_starts .logic true).head_append ▸ (e.tokens_starts .logic true).head_ne rfl
    obtain ⟨k, us, hnext, hending⟩ := ending_statement es ks
    rw [hnext] at hc
    obtain ⟨n, c₁, hn, hks, hreads⟩ := he.closed hending hc
    have hrest : c₁.skipSemicolons.kinds =
        semicolons (Expr.parts .logic true es) ++ .symbol .closeBrace :: ks := by
      rw [Cursor.kinds_skipSemicolons, hks, ← hnext, skip_statements]
    obtain ⟨ns, close, c', hns, hks', hstatements⟩ := ih hes (before ++ [n]) hrest
    rw [List.append_assoc, List.singleton_append] at hstatements
    refine ⟨n :: ns, close, c', ?_, hks', .statement hopen hreads hstatements⟩
    rw [List.map_cons, hn, hns, Expr.nodes]

/-! ## Bodies -/

/-- The tree of a block does not depend on how its nodes are numbered. -/
theorem Node.bare_sequence (first : Node) (rest : List Node) (c : Cursor) :
    (c.build (Numbering.sequence first rest)).1.bare =
      Node.sequence first.bare (rest.map Node.bare) := by
  induction rest generalizing first with
  | nil => rfl
  | cons next rest ih =>
    have htail := ih next
    refine (Node.bare_mk _ _ _).trans ?_
    rw [Shape.map, List.map_cons, Node.sequence, ← htail]
    rfl

/-- A body that is printed is read as a block. -/
def Body.Readable (b : Body) : Prop :=
  ∀ ⦃c : Cursor⦄ ⦃ks : List Kind⦄, c.kinds = b.tokens ++ ks →
    ∃ n c', n.bare = b.node ∧ c'.kinds = ks ∧ Reads (.block n) c c'

namespace Body

theorem empty_readable : Body.empty.Readable := by
  intro c ks hc
  have hclose : c.advance.skipSemicolons.kinds = .symbol .closeBrace :: ks := by
    rw [Cursor.kinds_skipSemicolons, Cursor.kinds_advance hc]
    rfl
  have hend : Reads (.statements [] [] c.advance.skipSemicolons.span) c.advance _ :=
    .endStatements (Cursor.kind?_of_kinds hclose)
  refine ⟨_, _, ?_, ?_, .block (Cursor.kind?_of_kinds hc) hend⟩
  · exact Node.bare_build _ _ _
  · exact Cursor.kinds_advance hclose

theorem statements_readable {first : Expr} {rest : List Expr}
    (h : ∀ e ∈ first :: rest, e.Readable) : (Body.statements first rest).Readable := by
  intro c ks hc
  have hstart : c.advance.skipSemicolons.kinds =
      semicolons (Expr.parts .logic true (first :: rest)) ++ .symbol .closeBrace :: ks := by
    simp only [tokens, List.cons_append, List.append_assoc, List.nil_append] at hc
    rw [Cursor.kinds_skipSemicolons, Cursor.kinds_advance hc, Expr.parts, semicolons_cons,
      List.append_assoc]
    exact (first.tokens_starts .logic true).dropWhile_append _
  obtain ⟨ns, close, c', hns, hks, hreads⟩ := statements_ok h [] hstart
  obtain ⟨n, ns, rfl⟩ : ∃ n ns', ns = n :: ns' := by
    cases ns with
    | nil => cases hns
    | cons n ns => exact ⟨n, ns, rfl⟩
  rw [List.map_cons, Expr.nodes, List.cons.injEq] at hns
  refine ⟨_, _, ?_, ?_, .block (Cursor.kind?_of_kinds hc) hreads⟩
  · refine (Node.bare_sequence _ _ _).trans ?_
    rw [hns.1, hns.2, node]
  · exact hks

end Body

/-! ## Field initialisers -/

/-- An initialiser that is printed is read in front of a comma or a parenthesis. -/
def FieldInit.Readable (f : FieldInit) : Prop :=
  ∀ ⦃c : Cursor⦄ ⦃k : Kind⦄ ⦃ks : List Kind⦄, k = .symbol .comma ∨ k = .symbol .closeParen →
    c.kinds = f.tokens ++ k :: ks →
    ∃ name value c', c.kind? = some (.name name) ∧
      Node.detached (.init name value.bare false) = f.node ∧ c'.kinds = k :: ks ∧
      Reads (.initialValue c.span value) c.advance c'

namespace FieldInit

theorem plain_readable (name : String) : (plain name).Readable := by
  intro c k ks hk hc
  have hrest := Cursor.kinds_advance hc
  have hassign : c.advance.kind? ≠ some (.symbol .assign) := by
    rw [Cursor.kind?_of_kinds hrest]
    rcases hk with rfl | rfl <;> simp
  refine ⟨name, _, _, Cursor.kind?_of_kinds hc, ?_, ?_, .noValue hassign⟩
  · refine congrArg (fun value => Node.detached (.init name value false)) ?_
    exact Node.bare_build _ _ _
  · exact hrest

theorem value_readable (name : String) {e : Expr} (h : e.Readable) : (value name e).Readable := by
  intro c k ks hk hc
  have hending : Grammar.Ending (some k) := by
    rcases hk with rfl | rfl <;> simp [Grammar.Ending]
  have hassign := Cursor.kinds_advance hc
  obtain ⟨n, c', hn, hks, hreads⟩ := h.closed hending (Cursor.kinds_advance hassign)
  refine ⟨name, n, c', Cursor.kind?_of_kinds hc, ?_, hks,
    .value (Cursor.kind?_of_kinds hassign) hreads⟩
  rw [hn, node]

end FieldInit

theorem initialisers_ok {fs : List FieldInit} (h : ∀ f ∈ fs, f.Readable) (before : List Node)
    (hc : c.kinds = commas (fs.map FieldInit.tokens) ++ .symbol .closeParen :: ks) :
    ∃ ns c', ns.map Node.bare = fs.map FieldInit.node ∧ c'.kinds = ks ∧
      Reads (.initialisers before (before ++ ns)) c c' := by
  induction fs generalizing before c with
  | nil =>
    have hend : Reads (.initialisers before (before ++ [])) c c.advance := by
      rw [List.append_nil]
      exact .endInitialisers (Cursor.kind?_of_kinds hc)
    exact ⟨[], _, rfl, Cursor.kinds_advance hc, hend⟩
  | cons f fs ih =>
    obtain ⟨hf, hfs⟩ := List.forall_mem_cons.1 h
    cases fs with
    | nil =>
      have hc' : c.kinds = f.tokens ++ .symbol .closeParen :: ks := by
        simpa [commas] using hc
      obtain ⟨name, value, c₁, hname, hnode, hks, hreads⟩ := hf (.inr rfl) hc'
      refine ⟨[_], _, ?_, ?_, .lastInitialiser hname hreads (Cursor.kind?_of_kinds hks)⟩
      · rw [List.map_singleton, Node.bare_build, Shape.map, hnode, List.map_singleton]
      · exact Cursor.kinds_advance hks
    | cons g gs =>
      have hc' : c.kinds = f.tokens ++ .symbol .comma ::
          (commas ((g :: gs).map FieldInit.tokens) ++ .symbol .closeParen :: ks) := by
        simpa [commas] using hc
      obtain ⟨name, value, c₁, hname, hnode, hks, hreads⟩ := hf (.inl rfl) hc'
      have hnext : (c₁.build (Numbering.node (c.span.join value.span)
          (.init name value false))).2.advance.kinds = _ := Cursor.kinds_advance hks
      obtain ⟨ns, c', hns, hks', hrest⟩ := ih hfs (before ++ [(c₁.build (Numbering.node
        (c.span.join value.span) (.init name value false))).1]) hnext
      rw [List.append_assoc, List.singleton_append] at hrest
      refine ⟨_ :: ns, c', ?_, hks',
        .nextInitialiser hname hreads (Cursor.kind?_of_kinds hks) hrest⟩
      rw [List.map_cons, Node.bare_build, Shape.map, hnode, hns]
      rfl

/-! ## Formal parameters -/

theorem Formal.isArgument {f : Formal} (hf : f.isValid = true) : IsArgument f.tokens f.node := by
  obtain ⟨name, type⟩ := f
  cases type with
  | none => exact (Expr.var_own name).readable.isArgument
  | some type =>
    refine ⟨fun us => by simp [tokens], ?_⟩
    intro c k ks hk hc
    simp only [isValid, Option.all_some, Bool.and_eq_true] at hf
    have hcolon := Cursor.kinds_advance hc
    obtain ⟨p, hp, hvalue, hks⟩ := VarType.type_ok hf.2 (Cursor.kinds_advance hcolon)
    refine ⟨_, _, ?_, ?_, .typedFormal (Cursor.kind?_of_kinds hc) (Cursor.kind?_of_kinds hcolon) hp⟩
    · rw [Node.bare_build, hvalue]
      rfl
    · exact hks

/-! ## Expressions with blocks -/

namespace Expr

theorem alloc_own {fields : List FieldInit} {body : Body} (h : ∀ f ∈ fields, f.Readable)
    (hb : body.Readable) : (alloc fields body).OwnReadable := by
  intro d c ks _ hc hf
  simp only [own, FieldInit.parts_eq_map, List.cons_append, List.append_assoc,
    List.nil_append] at hc
  have hparen := Cursor.kinds_advance hc
  obtain ⟨ns, c₁, hns, hks₁, hfields⟩ := initialisers_ok h [] (Cursor.kinds_advance hparen)
  obtain ⟨b, c₂, hb, hks, hblock⟩ := hb hks₁
  have hopens : Opens .postfixed d c _ _ := fun _ _ hm =>
    .postfixed (.allocation (Cursor.kind?_of_kinds hc) (Cursor.kind?_of_kinds hparen) hfields
      hblock) hm
  refine .of_opens hopens ?_ hks
  rw [Node.bare_build, Shape.map, List.nil_append, hns, hb, node, FieldInit.nodes_eq_map]

theorem method_own (name : String) {formals : List Formal} {body : Body}
    (h : ∀ f ∈ formals, f.isValid = true) (hb : body.Readable) :
    (method name formals body).OwnReadable := by
  intro d c ks hmethod hc hf
  obtain rfl : d = true := hmethod rfl
  simp only [own, List.cons_append, List.append_assoc, List.nil_append] at hc
  have hparen := Cursor.kinds_advance hc
  obtain ⟨ns, close, c₁, hns, hks₁, hreads⟩ :=
    arguments_ok (fun f hf => Formal.isArgument (h f hf)) [] (Cursor.kinds_advance hparen)
  obtain ⟨b, c₂, hb, hks, hblock⟩ := hb hks₁
  have hbrace : c₁.kind? = some (.symbol .openBrace) := by
    rw [c₁.kind?_eq, hks₁]
    cases body <;> rfl
  have hformals : ∀ n ∈ ns, n.tag = .var := by
    intro n hn
    have hbare : n.bare ∈ formals.map Formal.node := hns ▸ List.mem_map_of_mem hn
    obtain ⟨f, -, hf⟩ := List.mem_map.1 hbare
    rw [← Node.tag_bare, ← hf]
    rfl
  have hopens : Opens .postfixed true c _ _ := fun _ _ hm =>
    .postfixed (.method (Cursor.kind?_of_kinds hc) (Cursor.kind?_of_kinds hparen) hreads hbrace
      hformals hblock) hm
  refine .of_opens hopens ?_ hks
  rw [Node.bare_build, Shape.map, List.nil_append, hns, hb, node]

/-- A condition is read in front of the body of the first branch. -/
theorem Readable.condition {e : Expr} {b : Body} (h : e.Readable)
    (hc : c.kinds = e.tokens .logic false ++ (b.tokens ++ ks)) :
    ∃ n c', n.bare = e.node ∧ c'.kinds = b.tokens ++ ks ∧ Reads (.level .logic false n) c c' := by
  have hbrace : (b.tokens ++ ks).head? = some (.symbol .openBrace) := by cases b <;> rfl
  refine h.reads hc ?_ ?_
  · rw [hbrace]
    decide
  · rw [hbrace]
    rfl

theorem ite_own {condition : Expr} {positive negative : Body} (hcond : condition.Readable)
    (hpos : positive.Readable) (hneg : negative.Readable) :
    (ite condition positive negative).OwnReadable := by
  intro d c ks _ hc hf
  simp only [own, List.cons_append, List.append_assoc] at hc
  obtain ⟨n, c₁, hn, hks₁, hreads⟩ := hcond.condition (Cursor.kinds_advance hc)
  obtain ⟨p, c₂, hp, hks₂, hfirst⟩ := hpos hks₁
  obtain ⟨q, c₃, hq, hks, hsecond⟩ := hneg (Cursor.kinds_advance hks₂)
  have hopens : Opens .postfixed d c _ _ := fun _ _ hm =>
    .postfixed (.conditional (Cursor.kind?_of_kinds hc) hreads hfirst
      (.otherwise (Cursor.kind?_of_kinds hks₂) hsecond)) hm
  refine .of_opens hopens ?_ hks
  rw [Node.bare_build, Shape.map, hn, hp, hq, node]

theorem guarded_own {condition : Expr} {body : Body} (hcond : condition.Readable)
    (hb : body.Readable) : (guarded condition body).OwnReadable := by
  intro d c ks _ hc hf
  simp only [own, List.cons_append, List.append_assoc] at hc
  obtain ⟨n, c₁, hn, hks₁, hreads⟩ := hcond.condition (Cursor.kinds_advance hc)
  obtain ⟨b, c₂, hb, hks, hfirst⟩ := hb hks₁
  have helse : c₂.kind? ≠ some (.keyword .elseWord) := by
    rw [c₂.kind?_eq, hks]
    exact hf.elseWord
  have hopens : Opens .postfixed d c _ _ := fun _ _ hm =>
    .postfixed (.conditional (Cursor.kind?_of_kinds hc) hreads hfirst (.noOtherwise helse)) hm
  refine .of_opens hopens ?_ hks
  have hnop : ∀ (c : Cursor) (span : Span),
      (c.build (Numbering.node span .nop)).1.bare = Node.nop := fun _ _ => Node.bare_build _ _ _
  rw [Node.bare_build, Shape.map, hn, hb, hnop, node]

end Expr

end ProofScript
