import ProofScript.Proofs.Grammar.Soundness
import ProofScript.Proofs.Printing.Places

/-!
# Two readings side by side

The readers decide by the kinds of the tokens, and not by the places of the tokens or by the numbers
of the nodes. So two readings go alike as long as their tokens are of the same kinds. They even go
alike when the second text goes on with a semicolon where the first one ends: no reader of an
expression tells the end of the text from a semicolon.

A `Comparison` says how the two texts may differ, and what of a tree is compared. `Alike` relates
what two readers return, and has one rule for each way in which readers are put together.
-/

namespace ProofScript

open Token (Kind)

/-! ## Trees up to places and identities -/

/-- A tree without the places of its nodes, where the nodes have other identities. -/
def Node.relabelled (f : NodeId → NodeId) (n : Node) : Node :=
  fold (fun n s => mk (f n.id) Span.none s) n

/-- A tree without the places of its nodes. -/
def Node.unplaced (n : Node) : Node := n.relabelled fun i => i

namespace Node

variable {f : NodeId → NodeId} {n m : Node}

theorem relabelled_mk (f : NodeId → NodeId) (id : NodeId) (span : Span) (s : Shape Node) :
    (mk id span s).relabelled f = mk (f id) Span.none (s.map (relabelled f)) :=
  fold_mk _ _ _ _

theorem id_relabelled (n : Node) : (n.relabelled f).id = f n.id := by
  cases n
  rw [relabelled_mk]
  rfl

theorem shape_relabelled (n : Node) : (n.relabelled f).shape = n.shape.map (relabelled f) := by
  cases n
  rw [relabelled_mk]
  rfl

end Node

/-! ## Comparisons -/

/-- How two texts and what is read from them are compared. -/
structure Comparison where
  /-- What is kept of the identity of a node. -/
  relabel : NodeId → NodeId
  /-- The tokens behind the semicolon with which the second text goes on where the first one ends;
  none when the second text ends there too. -/
  more : Option (List Kind)

namespace Comparison

variable {cmp : Comparison} {α β γ δ : Type} {a b : Nat} {c d : Cursor} {k : Kind}

/-- What is kept of a tree. -/
def view (cmp : Comparison) (n : Node) : Node := n.relabelled cmp.relabel

/-- What the second text has where the first one has its end. -/
def tail (cmp : Comparison) : List Kind :=
  match cmp.more with
  | none => [.eof]
  | some ks => .symbol .semicolon :: ks

/-- The second text ends with the first. -/
def Exact (cmp : Comparison) : Prop := cmp.more = none

/-- Nodes that are numbered from `a` and from `b` on are not told apart. -/
def SameIds (cmp : Comparison) (a b : Nat) : Prop :=
  ∀ i, cmp.relabel (.numbered (a + i)) = cmp.relabel (.numbered (b + i))

/-- Two positions at which the same tokens come next. -/
structure Beside (cmp : Comparison) (c d : Cursor) : Prop where
  /-- The kinds of the tokens are the same up to the end of the first text. -/
  kinds : ∃ front, Kind.eof ∉ front ∧ c.kinds = front ++ [.eof] ∧ d.kinds = front ++ cmp.tail
  /-- The next nodes are not told apart. -/
  ids : cmp.SameIds c.nextId d.nextId

theorem SameIds.succ (h : cmp.SameIds a b) : cmp.SameIds (a + 1) (b + 1) := by
  intro i
  have hnext := h (1 + i)
  rwa [← Nat.add_assoc, ← Nat.add_assoc] at hnext

namespace Beside

/-- The next tokens are the same, or they are the end of the first text and a semicolon. -/
theorem kind? (h : cmp.Beside c d) :
    c.kind? = d.kind? ∨
      ¬cmp.Exact ∧ c.kind? = some .eof ∧ d.kind? = some (.symbol .semicolon) := by
  obtain ⟨front, -, hc, hd⟩ := h.kinds
  rw [Cursor.kind?_eq, Cursor.kind?_eq, hc, hd]
  cases front with
  | cons k front => exact .inl rfl
  | nil =>
    unfold tail Exact
    cases cmp.more with
    | none => exact .inl rfl
    | some ks => exact .inr ⟨Option.some_ne_none ks, rfl, rfl⟩

theorem kind?_ne_none (h : cmp.Beside c d) : c.kind? ≠ none ∧ d.kind? ≠ none := by
  obtain ⟨front, -, hc, hd⟩ := h.kinds
  rw [Cursor.kind?_eq, Cursor.kind?_eq, hc, hd, tail]
  cases front <;> cases cmp.more <;> simp

theorem kind?_of_exact (h : cmp.Beside c d) (he : cmp.Exact) : c.kind? = d.kind? := by
  rcases h.kind? with heq | ⟨hne, -⟩
  · exact heq
  · exact absurd he hne

/-- A token that is no end of a text and no semicolon comes next in both texts or in none. -/
theorem kind?_iff (h : cmp.Beside c d) (hk : k ∉ [.eof, .symbol .semicolon]) :
    c.kind? = some k ↔ d.kind? = some k := by
  simp only [List.mem_cons, List.not_mem_nil, or_false, not_or] at hk
  rcases h.kind? with heq | ⟨-, hc, hd⟩
  · rw [heq]
  · rw [hc, hd, Option.some.injEq, Option.some.injEq]
    exact iff_of_false (Ne.symm hk.1) (Ne.symm hk.2)

theorem kind?_bind (h : cmp.Beside c d) {p : Kind → Option α} (he : p .eof = none)
    (hs : p (.symbol .semicolon) = none) : c.kind?.bind p = d.kind?.bind p := by
  rcases h.kind? with heq | ⟨-, hc, hd⟩
  · rw [heq]
  · rw [hc, hd, Option.bind_some, Option.bind_some, he, hs]

theorem at? (h : cmp.Beside c d) {s : Symbol} (hs : s ≠ .semicolon) : c.at? s = d.at? s := by
  have hiff := h.kind?_iff (k := .symbol s) (by simpa using hs)
  unfold Cursor.at?
  rw [Bool.eq_iff_iff, beq_iff_eq, beq_iff_eq, hiff]

theorem advance (h : cmp.Beside c d) (hk : c.kind? = some k) (he : k ≠ .eof) :
    cmp.Beside c.advance d.advance := by
  obtain ⟨front, heof, hc, hd⟩ := h.kinds
  rw [Cursor.kind?_eq, hc] at hk
  cases front with
  | nil => exact absurd (Option.some.inj hk).symm he
  | cons k' front =>
    exact ⟨⟨front, fun hmem => heof (List.mem_cons_of_mem _ hmem), Cursor.kinds_advance hc,
      Cursor.kinds_advance hd⟩, h.ids⟩

/-- Behind the semicolons that come next the first text is at its end. In the second text the
semicolon with which it goes on is skipped, too. -/
theorem skipSemicolons_end (h : cmp.Beside c d) (hend : c.skipSemicolons.kind? = some .eof) :
    c.skipSemicolons.kinds = [.eof] ∧
      d.skipSemicolons.kinds = cmp.tail.dropWhile (· == .symbol .semicolon) := by
  obtain ⟨front, heof, hc, hd⟩ := h.kinds
  rw [Cursor.kind?_eq, Cursor.kinds_skipSemicolons, hc, List.dropWhile_append] at hend
  rw [Cursor.kinds_skipSemicolons, Cursor.kinds_skipSemicolons, hc, hd, List.dropWhile_append,
    List.dropWhile_append]
  split at hend
  · next hall =>
    rw [if_pos hall, if_pos hall]
    exact ⟨rfl, rfl⟩
  · -- A token of the first text is left.
    obtain ⟨k, left, hleft⟩ := List.exists_cons_of_ne_nil (mt List.isEmpty_iff.2 ‹_›)
    have hmem : k ∈ front.dropWhile (· == .symbol .semicolon) := by
      rw [hleft]
      exact List.mem_cons_self
    rw [hleft, List.cons_append, List.head?_cons, Option.some.injEq] at hend
    rw [hend] at hmem
    exact absurd ((List.dropWhile_suffix _).subset hmem) heof

/-- Behind the semicolons that come next the same tokens come next, when the first text is not at
its end. -/
theorem skipSemicolons_beside (h : cmp.Beside c d) (hend : c.skipSemicolons.kind? ≠ some .eof) :
    cmp.Beside c.skipSemicolons d.skipSemicolons := by
  obtain ⟨front, heof, hc, hd⟩ := h.kinds
  have hall : ¬(front.dropWhile (· == .symbol .semicolon)).isEmpty = true := by
    intro hall
    rw [Cursor.kind?_eq, Cursor.kinds_skipSemicolons, hc, List.dropWhile_append,
      if_pos hall] at hend
    exact hend rfl
  have hfront : Kind.eof ∉ front.dropWhile (· == .symbol .semicolon) := fun hmem =>
    heof ((List.dropWhile_suffix _).subset hmem)
  refine ⟨⟨_, hfront, ?_, ?_⟩, h.ids⟩
  · rw [Cursor.kinds_skipSemicolons, hc, List.dropWhile_append, if_neg hall]
  · rw [Cursor.kinds_skipSemicolons, hd, List.dropWhile_append, if_neg hall]

/-- Behind the semicolons that come next the same tokens come next, or the first text is at its end
and the second one goes on. -/
theorem skipSemicolons (h : cmp.Beside c d) :
    cmp.Beside c.skipSemicolons d.skipSemicolons ∨
      ¬cmp.Exact ∧ c.skipSemicolons.kind? = some .eof := by
  by_cases hend : c.skipSemicolons.kind? = some .eof
  · by_cases he : cmp.Exact
    · obtain ⟨hc, hd⟩ := h.skipSemicolons_end hend
      have htail : cmp.tail = [.eof] := by rw [tail, he]
      rw [htail] at hd
      exact .inl ⟨⟨[], List.not_mem_nil, hc, by rw [hd, htail]; rfl⟩, h.ids⟩
    · exact .inr ⟨he, hend⟩
  · exact .inl (h.skipSemicolons_beside hend)

theorem skipSemicolons_of_exact (h : cmp.Beside c d) (he : cmp.Exact) :
    cmp.Beside c.skipSemicolons d.skipSemicolons :=
  h.skipSemicolons.resolve_right fun hgoesOn => hgoesOn.1 he

end Beside

/-! ## Looking at nodes -/

section Nodes

variable {n n' : Node}

theorem shape_of_view (h : cmp.view n = cmp.view n') :
    n.shape.map cmp.view = n'.shape.map cmp.view := by
  have hshape := congrArg Node.shape h
  rwa [view, view, Node.shape_relabelled, Node.shape_relabelled] at hshape

theorem id_of_view (h : cmp.view n = cmp.view n') : cmp.relabel n.id = cmp.relabel n'.id := by
  have hid := congrArg Node.id h
  rwa [view, view, Node.id_relabelled, Node.id_relabelled] at hid

theorem tag_of_view (h : cmp.view n = cmp.view n') : n.tag = n'.tag := by
  have htag := congrArg Shape.tag (shape_of_view h)
  rwa [Shape.tag_map, Shape.tag_map] at htag

theorem view_mk {id id' : NodeId} {place place' : Span} {s s' : Shape Node}
    (hid : cmp.relabel id = cmp.relabel id') (hs : s.map cmp.view = s'.map cmp.view) :
    cmp.view (.mk id place s) = cmp.view (.mk id' place' s') := by
  rw [view, view, Node.relabelled_mk, Node.relabelled_mk, hid]
  exact congrArg (Node.mk _ _) hs

theorem const_of_view {v : Value} (h : cmp.view n = cmp.view n') (hs : n.shape = .const v) :
    n'.shape = .const v := by
  have hshape := shape_of_view h
  rw [hs] at hshape
  cases hs' : n'.shape <;> simp_all [Shape.map]

theorem isNil_of_view (h : cmp.view n = cmp.view n') : n.isNil = n'.isNil := by
  have hconst : ∀ m : Node, m.isNil = true ↔ m.shape = .const .nil := by
    intro m
    unfold Node.isNil
    split
    · next hs => exact iff_of_true rfl hs
    · next hs => exact iff_of_false Bool.false_ne_true hs
  rw [Bool.eq_iff_iff, hconst, hconst]
  exact ⟨const_of_view h, const_of_view h.symm⟩

theorem var_of_view {name : String} {type : Option VarType} (h : cmp.view n = cmp.view n')
    (hs : n.shape = .var name type) : n'.shape = .var name type := by
  have hshape := shape_of_view h
  rw [hs] at hshape
  cases hs' : n'.shape <;> simp_all [Shape.map]

theorem compound_of_view {object index : Node} {name : String} (h : cmp.view n = cmp.view n')
    (hs : n.shape = .compound object name index) :
    ∃ object' index', n'.shape = .compound object' name index' ∧
      cmp.view object = cmp.view object' ∧ cmp.view index = cmp.view index' := by
  have hshape := shape_of_view h
  rw [hs] at hshape
  cases hs' : n'.shape <;> simp_all [Shape.map]

end Nodes

/-! ## Building nodes -/

/-- Two ways of building go alike: the results are not told apart, nor are the nodes to come. -/
def Builds (cmp : Comparison) (v : α → γ) (m m' : Numbering α) : Prop :=
  ∀ ⦃a b⦄, cmp.SameIds a b →
    v (m.run a).1 = v (m'.run b).1 ∧ cmp.SameIds (m.run a).2 (m'.run b).2

section Builds

variable {v : α → γ} {w : β → δ} {m m' : Numbering α} {place place' : Span} {n n' : Node}

theorem builds_pure {x y : α} (h : v x = v y) : cmp.Builds v (pure x) (pure y) :=
  fun _ _ hids => ⟨h, hids⟩

theorem Builds.bind {f f' : α → Numbering β} (hm : cmp.Builds v m m')
    (hf : ∀ x y, v x = v y → cmp.Builds w (f x) (f' y)) : cmp.Builds w (m >>= f) (m' >>= f') := by
  intro a b hids
  obtain ⟨hvalue, hnext⟩ := hm hids
  exact hf _ _ hvalue hnext

theorem builds_node {s s' : Shape Node} (h : s.map cmp.view = s'.map cmp.view) :
    cmp.Builds cmp.view (Numbering.node place s) (Numbering.node place' s') :=
  fun _ _ hids => ⟨view_mk (hids 0) h, hids.succ⟩

theorem builds_nil : cmp.Builds cmp.view (Numbering.nil place) (Numbering.nil place') :=
  builds_node rfl

theorem builds_call {name : String} {args args' : List Node}
    (h : args.map cmp.view = args'.map cmp.view) :
    cmp.Builds cmp.view (Numbering.call place name args) (Numbering.call place' name args') := by
  refine builds_nil.bind fun receiver receiver' hreceiver => builds_node ?_
  rw [Shape.map, Shape.map, hreceiver, h]

theorem builds_binary {op : String} {l l' r r' : Node} (hl : cmp.view l = cmp.view l')
    (hr : cmp.view r = cmp.view r') :
    cmp.Builds cmp.view (Numbering.binary op l r) (Numbering.binary op l' r') :=
  builds_call (by simp only [List.map_cons, List.map_nil, hl, hr])

theorem unary_of_not_int {op : Symbol} (h : ∀ v, n.shape ≠ .const (.int v)) :
    Numbering.unary op place n = Numbering.call (place.join n.span) op.spelling [n] := by
  unfold Numbering.unary
  split
  · next hs => exact absurd hs (h _)
  · next hs => exact absurd hs (h _)
  · rfl

theorem builds_unary {op : Symbol} (h : cmp.view n = cmp.view n') :
    cmp.Builds cmp.view (Numbering.unary op place n) (Numbering.unary op place' n') := by
  have hcall : cmp.Builds cmp.view (Numbering.call (place.join n.span) op.spelling [n])
      (Numbering.call (place'.join n'.span) op.spelling [n']) :=
    builds_call (by rw [List.map_singleton, List.map_singleton, h])
  by_cases hint : ∃ v, n.shape = .const (.int v)
  · obtain ⟨v, hs⟩ := hint
    have hs' := const_of_view h hs
    have hid := id_of_view h
    unfold Numbering.unary
    rw [hs, hs']
    cases op with
    | minus | plus => exact builds_pure (view_mk hid rfl)
    | _ => exact hcall
  · have hnot : ∀ v, n.shape ≠ .const (.int v) := fun v hs => hint ⟨v, hs⟩
    have hnot' : ∀ v, n'.shape ≠ .const (.int v) := fun v hs =>
      hint ⟨v, const_of_view h.symm hs⟩
    rw [unary_of_not_int hnot, unary_of_not_int hnot']
    exact hcall

theorem builds_field {name : String} (h : cmp.view n = cmp.view n') :
    cmp.Builds cmp.view (Numbering.field n name place) (Numbering.field n' name place') := by
  refine builds_nil.bind fun index index' hindex => builds_node ?_
  rw [Shape.map, Shape.map, h, hindex]

theorem builds_sequence {rest rest' : List Node} (h : cmp.view n = cmp.view n')
    (hrest : rest.map cmp.view = rest'.map cmp.view) :
    cmp.Builds cmp.view (Numbering.sequence n rest) (Numbering.sequence n' rest') := by
  induction rest generalizing n n' rest' with
  | nil =>
    obtain rfl := List.map_eq_nil_iff.1 hrest.symm
    exact builds_pure h
  | cons next rest ih =>
    obtain ⟨next', rest', rfl, hnext, htail⟩ := List.map_eq_cons_iff.1 hrest.symm
    refine (ih hnext.symm htail.symm).bind fun tail tail' heq => builds_node ?_
    rw [Shape.map, Shape.map, h, heq]

theorem builds_block {items items' : List Node} (h : items.map cmp.view = items'.map cmp.view) :
    cmp.Builds cmp.view (Numbering.block place items) (Numbering.block place' items') := by
  cases items with
  | nil =>
    obtain rfl := List.map_eq_nil_iff.1 h.symm
    exact builds_node rfl
  | cons first rest =>
    obtain ⟨first', rest', rfl, hfirst, hrest⟩ := List.map_eq_cons_iff.1 h.symm
    exact builds_sequence hfirst.symm hrest.symm

end Builds

/-! ## Readings that go alike -/

/-- Two computations have results that `P` relates, as far as the first one has a result; in an
exact comparison they fail for the same reason. -/
structure Agree (cmp : Comparison) (P : α → β → Prop) (x : Except ParseError α)
    (y : Except ParseError β) : Prop where
  /-- A result of the first is one of the second. -/
  ok : ∀ p, x = .ok p → ∃ q, y = .ok q ∧ P p q
  /-- A fault of the first is one of the second. -/
  error : cmp.Exact → ∀ e, x = .error e → ∃ e', y = .error e' ∧ e'.fault = e.fault

section Agree

variable {P : α → β → Prop} {Q : γ → δ → Prop} {x : Except ParseError α} {y : Except ParseError β}

theorem agree_ok {p : α} {q : β} (h : P p q) : cmp.Agree P (.ok p) (.ok q) where
  ok := by
    rintro _ hp
    obtain rfl := Except.ok.inj hp
    exact ⟨q, rfl, h⟩
  error := nofun

theorem agree_error {e e' : ParseError} (h : cmp.Exact → e'.fault = e.fault) :
    cmp.Agree P (.error e) (.error e') where
  ok := nofun
  error := by
    rintro he _ heq
    obtain rfl := Except.error.inj heq
    exact ⟨e', rfl, h he⟩

/-- Nothing is asked when the first text ends too early. -/
theorem agree_of_error {e : ParseError} (hx : x = .error e) (he : ¬cmp.Exact) :
    cmp.Agree P x y where
  ok := by
    intro p hp
    cases hx.symm.trans hp
  error := fun hexact => absurd hexact he

/-- The cases of two computations that agree. -/
@[elab_as_elim]
theorem Agree.elim {motive : Except ParseError α → Except ParseError β → Prop}
    (h : cmp.Agree P x y) (ok : ∀ p q, P p q → motive (.ok p) (.ok q))
    (error : ∀ e e', (cmp.Exact → e'.fault = e.fault) → motive (.error e) (.error e'))
    (early : ∀ e y, ¬cmp.Exact → motive (.error e) y) : motive x y := by
  cases hx : x with
  | ok p =>
    obtain ⟨q, hq, hP⟩ := h.ok p hx
    rw [hq]
    exact ok p q hP
  | error e =>
    by_cases he : cmp.Exact
    · obtain ⟨e', he', hfault⟩ := h.error he e hx
      rw [he']
      exact error e e' fun _ => hfault
    · exact early e y he

theorem Agree.bind {f : α → Except ParseError γ} {g : β → Except ParseError δ}
    (h : cmp.Agree P x y) (hf : ∀ p q, P p q → cmp.Agree Q (f p) (g q)) :
    cmp.Agree Q (x >>= f) (y >>= g) :=
  h.elim hf (fun _ _ => agree_error) fun _ _ => agree_of_error rfl

theorem agree_dite {A B : Prop} [Decidable A] [Decidable B] {f : A → Except ParseError α}
    {g : B → Except ParseError β} {f' : ¬A → Except ParseError α} {g' : ¬B → Except ParseError β}
    (hiff : A ↔ B) (hpos : ∀ ha hb, cmp.Agree P (f ha) (g hb))
    (hneg : ∀ ha hb, cmp.Agree P (f' ha) (g' hb)) :
    cmp.Agree P (dite A f f') (dite B g g') := by
  by_cases ha : A
  · rw [dif_pos ha, dif_pos (hiff.1 ha)]
    exact hpos _ _
  · rw [dif_neg ha, dif_neg (mt hiff.2 ha)]
    exact hneg _ _

theorem agree_ite {A B : Prop} [Decidable A] [Decidable B] {x' : Except ParseError α}
    {y' : Except ParseError β} (hiff : A ↔ B) (hpos : A → cmp.Agree P x y)
    (hneg : ¬A → cmp.Agree P x' y') : cmp.Agree P (ite A x x') (ite B y y') := by
  by_cases ha : A
  · rw [if_pos ha, if_pos (hiff.1 ha)]
    exact hpos ha
  · rw [if_neg ha, if_neg (mt hiff.2 ha)]
    exact hneg ha

end Agree

section Accessors

variable {n n' : Node} {place place' : Span}

theorem agree_index {i i' : Node} (h : cmp.view n = cmp.view n') (hi : cmp.view i = cmp.view i') :
    cmp.Agree (cmp.Builds cmp.view) (Numbering.index n i place) (Numbering.index n' i' place') := by
  have hid := id_of_view h
  cases hs : n.shape with
  | compound object name old =>
    obtain ⟨object', old', hs', hobject, hold⟩ := compound_of_view h hs
    simp only [Numbering.index, hs, hs', isNil_of_view hold]
    refine agree_ite Iff.rfl (fun _ => agree_ok (builds_pure (view_mk hid ?_))) fun _ => ?_
    · rw [Shape.map, Shape.map, hobject, hi]
    · exact agree_error fun _ => rfl
  | var name type =>
    simp only [Numbering.index, hs, var_of_view h hs]
    refine agree_ok (builds_nil.bind fun object object' hobject => builds_pure (view_mk hid ?_))
    rw [Shape.map, Shape.map, hobject, hi]
  | _ =>
    have htag := tag_of_view h
    rw [Node.tag, Node.tag, hs] at htag
    cases hs' : n'.shape with
    | compound | var =>
      rw [hs'] at htag
      cases htag
    | _ =>
      simp only [Numbering.index, hs, hs']
      exact agree_error fun _ => rfl

theorem agree_memberCall {args args' : List Node} (h : cmp.view n = cmp.view n')
    (hargs : args.map cmp.view = args'.map cmp.view) :
    cmp.Agree (fun m m' => cmp.view m = cmp.view m') (Numbering.memberCall n args place)
      (Numbering.memberCall n' args' place') := by
  have hid := id_of_view h
  cases hs : n.shape with
  | compound receiver name index =>
    obtain ⟨receiver', index', hs', hreceiver, hindex⟩ := compound_of_view h hs
    simp only [Numbering.memberCall, hs, hs', isNil_of_view hindex]
    refine agree_ite Iff.rfl (fun _ => agree_ok (view_mk hid ?_)) fun _ => ?_
    · rw [Shape.map, Shape.map, hreceiver, hargs]
    · exact agree_error fun _ => rfl
  | _ =>
    have htag := tag_of_view h
    rw [Node.tag, Node.tag, hs] at htag
    cases hs' : n'.shape with
    | compound =>
      rw [hs'] at htag
      cases htag
    | _ =>
      simp only [Numbering.memberCall, hs, hs']
      exact agree_error fun _ => rfl

end Accessors

/-- Two readings return what is not told apart, and end side by side. -/
structure Readings (cmp : Comparison) (v : α → γ) {a b : Nat} (p : Parsed a α) (q : Parsed b α) :
    Prop where
  /-- What was read. -/
  value : v p.value = v q.value
  /-- Where the readings ended. -/
  rest : cmp.Beside p.rest q.rest

theorem Readings.build {v : α → γ} {p : Parsed a β} {q : Parsed b δ} {m m' : Numbering α}
    (h : cmp.Beside p.rest q.rest) (hm : cmp.Builds v m m') :
    cmp.Readings v (p.build m) (q.build m') := by
  obtain ⟨hvalue, hids⟩ := hm h.ids
  exact ⟨hvalue, h.kinds, hids⟩

/-- Two readers go alike. -/
abbrev Alike (cmp : Comparison) (v : α → γ) {a b : Nat} (x : Except ParseError (Parsed a α))
    (y : Except ParseError (Parsed b α)) : Prop :=
  cmp.Agree (cmp.Readings v) x y

end Comparison

end ProofScript
