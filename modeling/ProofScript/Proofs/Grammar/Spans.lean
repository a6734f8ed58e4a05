import ProofScript.Proofs.Grammar.Positions
import ProofScript.Proofs.Grammar.WellFormed

/-!
# Where nodes stand

A node starts where some token starts and stops where some token stops, and its span covers those of
its children. The readers only join spans, so the ends are never invented. That a node covers what
it is made of rests on the order of the tokens: whatever is read between two positions stands
between them (`Phrase.Stands`), and so in front of the bracket or the block that is read last.
-/

namespace ProofScript

/-! ## Nodes -/

namespace Node

/-- The nodes of a tree have the ends of some spans `ss`, and cover their children. -/
def Sound (ss : List Span) (n : Node) : Prop :=
  n.Everywhere fun m => m.span.Bounded ss ∧ ∀ k ∈ m.children, m.span.Contains k.span

/-- A tree stands between two offsets. -/
structure Stands (ss : List Span) (lo hi : Nat) (n : Node) : Prop where
  sound : n.Sound ss
  span : n.span.Stands ss lo hi

/-- Every member of a list stands between two offsets. -/
def AllStand (ss : List Span) (lo hi : Nat) (ns : List Node) : Prop := ∀ n ∈ ns, n.Stands ss lo hi

variable {ss : List Span} {lo lo' mid mid' hi hi' : Nat} {n : Node} {ns : List Node} {id : NodeId}
  {span : Span} {s : Shape Node}

theorem Stands.mono (h : n.Stands ss lo hi) (hlo : lo' ≤ lo) (hhi : hi ≤ hi') :
    n.Stands ss lo' hi' :=
  ⟨h.sound, h.span.mono hlo hhi⟩

theorem allStand_nil : AllStand ss lo hi [] := fun _ h => absurd h List.not_mem_nil

theorem AllStand.mono (h : AllStand ss lo hi ns) (hlo : lo' ≤ lo) (hhi : hi ≤ hi') :
    AllStand ss lo' hi' ns :=
  fun n hn => (h n hn).mono hlo hhi

/-- One more member behind the others. -/
theorem AllStand.snoc (h : AllStand ss lo mid ns) (hn : n.Stands ss mid' hi) (hlo : lo ≤ mid)
    (hmid : mid ≤ mid') : AllStand ss lo hi (ns ++ [n]) := by
  refine List.forall_mem_append.2 ⟨?_, List.forall_mem_singleton.2 ?_⟩
  · exact h.mono (Nat.le_refl _) (hmid.trans hn.span.le)
  · exact hn.mono (hlo.trans hmid) (Nat.le_refl _)

theorem Sound.child (h : n.Sound ss) {k : Node} (hk : k ∈ n.children) :
    k.Sound ss ∧ n.span.Contains k.span :=
  ⟨Everywhere.child h hk, (Everywhere.root h).2 k hk⟩

/-- A tree stands where its root does, when the root covers what stands below it. -/
theorem stands_mk (hspan : span.Stands ss lo hi)
    (hchildren : ∀ k ∈ s.children, k.Sound ss ∧ span.Contains k.span) :
    (mk id span s).Stands ss lo hi where
  sound := everywhere_mk.2 ⟨⟨hspan.bounded, fun k hk => (hchildren k hk).2⟩,
    fun k hk => (hchildren k hk).1⟩
  span := hspan

theorem stands_leaf (hspan : span.Stands ss lo hi) (hchildren : s.children = []) :
    (mk id span s).Stands ss lo hi :=
  stands_mk hspan (by simp [hchildren])

/-- A node that starts with a token covers what follows the token. -/
theorem stands_single {place : Span} {k : Node} (hk : k.Sound ss)
    (hspan : (place.join k.span).Stands ss lo hi) (hs : s.children = [k]) :
    (mk id (place.join k.span) s).Stands ss lo hi := by
  refine stands_mk hspan ?_
  rw [hs]
  exact List.forall_mem_singleton.2 ⟨hk, Span.contains_join_right _ _⟩

/-- A node over two others covers both. -/
theorem stands_pair {a b : Node} (ha : a.Sound ss) (hb : b.Sound ss)
    (hspan : (a.span.join b.span).Stands ss lo hi) (hs : s.children = [a, b]) :
    (mk id (a.span.join b.span) s).Stands ss lo hi := by
  refine stands_mk hspan ?_
  rw [hs]
  simpa using ⟨⟨ha, Span.contains_join_left _ _⟩, hb, Span.contains_join_right _ _⟩

/-- What stands between two spans is covered by both together. -/
theorem AllStand.covered {a b : Span} (h : AllStand ss lo hi ns) (ha : a.offset ≤ lo)
    (hb : hi ≤ b.stop) : ∀ k ∈ ns, k.Sound ss ∧ (a.join b).Contains k.span := by
  intro k hk
  have hspan := (h k hk).span
  exact ⟨(h k hk).sound, Span.contains_join (ha.trans hspan.lo_le) (hspan.le_hi.trans hb)⟩

/-- A node that starts with a token and ends with a body covers what stands between them. -/
theorem stands_body {place : Span} {body : Node} (hplace : place.Stands ss lo mid)
    (hmembers : AllStand ss mid mid' ns) (hbody : body.Stands ss mid' hi) (hle : mid ≤ mid')
    (hs : s.children = ns ++ [body]) : (mk id (place.join body.span) s).Stands ss lo hi := by
  refine stands_mk (hplace.join_of_le hbody.span hle) ?_
  rw [hs]
  refine List.forall_mem_append.2 ⟨?_, ?_⟩
  · refine hmembers.covered hplace.offset_le_hi ?_
    exact hbody.span.lo_le.trans body.span.offset_le_stop
  · exact List.forall_mem_singleton.2 ⟨hbody.sound, Span.contains_join_right _ _⟩

/-- The bracket `close` stands between two offsets, and the members `all` of the list that it closes
stand in front of it, when those of them that were there before, `before`, end at `lo`. -/
structure Closing (ss : List Span) (lo hi : Nat) (before all : List Node) (close : Span) :
    Prop where
  stands : close.Stands ss lo hi
  members : ∀ start ≤ lo, AllStand ss start lo before → AllStand ss start close.offset all

/-- One more member is read, and then the others. -/
theorem Closing.cons {before all : List Node} {close : Span} {behind : Nat}
    (h : Closing ss behind hi (before ++ [n]) all close) (hn : n.Stands ss mid mid')
    (hlo : lo ≤ mid) (hmid : mid' ≤ behind) : Closing ss lo hi before all close where
  stands := h.stands.mono (hlo.trans (hn.span.le.trans hmid)) (Nat.le_refl _)
  members := by
    intro start hstart hbefore
    refine h.members start (hstart.trans (hlo.trans (hn.span.le.trans hmid))) ?_
    exact hbefore.snoc (hn.mono (Nat.le_refl _) hmid) hstart hlo

end Node

namespace Numbering

variable {ss : List Span} {lo hi mid mid' next : Nat} {n m : Node} {args : List Node}
  {span place : Span}

theorem stands_nil (h : span.Stands ss lo hi) : ((nil span).run next).1.Stands ss lo hi :=
  Node.stands_leaf h rfl

theorem stands_call {name : String} (hspan : span.Stands ss lo hi)
    (hargs : ∀ k ∈ args, k.Sound ss ∧ span.Contains k.span) :
    ((call span name args).run next).1.Stands ss lo hi := by
  refine Node.stands_mk hspan (List.forall_mem_cons.2 ⟨?_, hargs⟩)
  exact ⟨(stands_nil hspan).sound, span.contains_refl⟩

theorem stands_binary {op : String} (hn : n.Stands ss lo mid) (hm : m.Stands ss mid' hi)
    (h : mid ≤ mid') : ((binary op n m).run next).1.Stands ss lo hi := by
  refine stands_call (hn.span.join_of_le hm.span h) ?_
  simpa using ⟨⟨hn.sound, Span.contains_join_left _ _⟩, hm.sound, Span.contains_join_right _ _⟩

theorem stands_unary {op : Symbol} (hplace : place.Stands ss lo mid) (hn : n.Stands ss mid hi) :
    ((unary op place n).run next).1.Stands ss lo hi := by
  have hspan := hplace.join_of_le hn.span (Nat.le_refl _)
  unfold unary
  dsimp only
  split
  · exact Node.stands_leaf hspan rfl
  · next hs => exact Node.stands_leaf hspan (by rw [hs]; rfl)
  · refine stands_call hspan ?_
    simpa using ⟨hn.sound, Span.contains_join_right _ _⟩

theorem stands_field {name : String} (hn : n.Stands ss lo mid) (hplace : place.Stands ss mid' hi)
    (h : mid ≤ mid') : ((field n name place).run next).1.Stands ss lo hi := by
  have hspan := hn.span.join_of_le hplace h
  refine Node.stands_mk hspan ?_
  have hobject := Span.contains_join_left n.span place
  simpa [Shape.children] using
    ⟨⟨hn.sound, hobject⟩, (stands_nil hspan).sound, Span.contains_refl _⟩

/-- The index stands behind the base, and in front of the closing bracket at `place`. -/
theorem stands_index {make : Numbering Node} (hn : n.Stands ss lo mid) (hm : m.Stands ss mid mid')
    (hplace : place.Stands ss mid' hi) (h : index n m place = .ok make) :
    (make.run next).1.Stands ss lo hi := by
  have hspan : (n.span.join place).Stands ss lo hi := hn.span.join_of_le hplace hm.span.le
  have hobject := Span.contains_join_left n.span place
  have hindex : (n.span.join place).Contains m.span := by
    refine Span.contains_join ?_ ?_
    · exact n.span.offset_le_stop.trans (hn.span.le_hi.trans hm.span.lo_le)
    · exact hm.span.le_hi.trans (hplace.lo_le.trans place.offset_le_stop)
  unfold index at h
  dsimp only at h
  split at h
  · next object name old hs =>
    obtain ⟨hsound, hcontains⟩ := hn.sound.child (k := object)
      (by simp [Node.children, hs, Shape.children])
    split at h
    · obtain rfl := Except.ok.inj h
      refine Node.stands_mk hspan ?_
      simpa [Shape.children] using ⟨⟨hsound, hobject.trans hcontains⟩, hm.sound, hindex⟩
    · contradiction
  · obtain rfl := Except.ok.inj h
    refine Node.stands_mk hspan ?_
    have hnil : ((nil n.span).run next).1.Sound ss := (stands_nil hn.span).sound
    simpa [Shape.children] using ⟨⟨hnil, hobject⟩, hm.sound, hindex⟩
  · contradiction

/-- The arguments stand behind the target, and in front of the closing parenthesis at `place`. -/
theorem stands_memberCall {call : Node} (hn : n.Stands ss lo mid)
    (hargs : Node.AllStand ss mid place.offset args) (hplace : place.Stands ss mid hi)
    (h : memberCall n args place = .ok call) : call.Stands ss lo hi := by
  have hspan : (n.span.join place).Stands ss lo hi := hn.span.join_of_le hplace (Nat.le_refl _)
  have hcovered : ∀ k ∈ args, k.Sound ss ∧ (n.span.join place).Contains k.span :=
    hargs.covered (n.span.offset_le_stop.trans hn.span.le_hi) place.offset_le_stop
  unfold memberCall at h
  dsimp only at h
  split at h
  · next receiver name i hs =>
    obtain ⟨hsound, hcontains⟩ := hn.sound.child (k := receiver)
      (by simp [Node.children, hs, Shape.children])
    split at h
    · obtain rfl := Except.ok.inj h
      have hreceiver := (Span.contains_join_left n.span place).trans hcontains
      exact Node.stands_mk hspan (List.forall_mem_cons.2 ⟨⟨hsound, hreceiver⟩, hcovered⟩)
    · contradiction
  · contradiction

theorem stands_sequence : ∀ {n : Node} {next : Nat}, n.Stands ss lo hi →
    Node.AllStand ss lo hi args → ((sequence n args).run next).1.Stands ss lo hi := by
  induction args with
  | nil => exact fun hn _ => hn
  | cons m args ih =>
    intro n next hn hargs
    have htail : ((sequence m args).run next).1.Stands ss lo hi :=
      ih (hargs _ List.mem_cons_self) fun k hk => hargs k (List.mem_cons_of_mem _ hk)
    exact Node.stands_pair hn.sound htail.sound (hn.span.join htail.span) rfl

theorem stands_block (hspan : span.Stands ss lo hi) (hargs : Node.AllStand ss lo hi args) :
    ((block span args).run next).1.Stands ss lo hi := by
  cases args with
  | nil => exact Node.stands_leaf hspan rfl
  | cons n args =>
    exact stands_sequence (hargs _ List.mem_cons_self) fun k hk =>
      hargs k (List.mem_cons_of_mem _ hk)

end Numbering

namespace Grammar

/-! ## Expressions -/

/-- What is read between the offsets `lo` and `hi` stands there, together with what it continues. A
closing bracket stands behind what it closes. -/
def Phrase.Stands (ss : List Span) (lo hi : Nat) : Phrase → Prop
  | .level _ _ n | .primary _ n | .argument n | .block n => n.Stands ss lo hi
  | .operators _ _ base n | .accessors base n =>
    ∀ start, base.Stands ss start lo → n.Stands ss start hi
  | .statements before all close | .arguments before all close | .components _ before all close =>
    Node.Closing ss lo hi before all close
  | .initialisers before all =>
    ∀ start ≤ lo, Node.AllStand ss start lo before → Node.AllStand ss start hi all
  | .initialValue place n => ∀ start, place.Stands ss start lo → n.Stands ss start hi
  | .otherwise positive n => ∀ start, positive.Stands ss start lo →
    n.Stands ss start hi ∧ positive.span.stop ≤ n.span.stop

theorem stands_of_reads {ss : List Span} {p : Phrase} {c c' : Cursor} (h : Reads p c c') :
    c.Placed ss → p.Stands ss c.span.offset c'.span.offset := by
  -- The parts of a phrase are read one behind the other: each stands between two positions, and
  -- the tokens between the parts take the room from one part to the next.
  induction h with
  | operands _ first _ ihFirst ihRest =>
    intro hc
    exact ihRest (hc.after (places_of_reads first)) _ (ihFirst hc)
  | noOperator _ => exact fun _ _ h => h
  | operator here operand _ ihOperand ihRest =>
    intro hc start hleft
    obtain ⟨k, hk, -⟩ := Option.bind_eq_some_iff.1 here
    refine ihRest (hc.advance.after (places_of_reads operand)).build start ?_
    exact Numbering.stands_binary hleft (ihOperand hc.advance) (hc.token hk).le
  | unassigned _ _ ihTarget => exact ihTarget
  | assigned left assign _ _ _ ihLeft ihRight =>
    intro hc
    have hc₁ := hc.after (places_of_reads left)
    have htarget := ihLeft hc
    have hvalue := ihRight hc₁.advance
    have hspan := htarget.span.join_of_le hvalue.span (hc₁.token assign).le
    exact Node.stands_pair htarget.sound hvalue.sound hspan rfl
  | uncompared _ _ ihSum => exact ihSum
  | compared first here _ _ ihFirst ihSecond =>
    intro hc
    obtain ⟨k, hk, -⟩ := Option.bind_eq_some_iff.1 here
    have hc₁ := hc.after (places_of_reads first)
    exact Numbering.stands_binary (ihFirst hc) (ihSecond hc₁.advance) (hc₁.token hk).le
  | unsigned _ _ ihPostfixed => exact ihPostfixed
  | signed here _ ihOperand =>
    intro hc
    obtain ⟨k, hk, -⟩ := Option.bind_eq_some_iff.1 here
    exact Numbering.stands_unary (hc.token hk) (ihOperand hc.advance)
  | postfixed primary _ ihPrimary ihAccessors =>
    intro hc
    exact ihAccessors (hc.after (places_of_reads primary)) _ (ihPrimary hc)
  | noAccessor _ _ _ => exact fun _ _ h => h
  | field dot name _ ihRest =>
    intro hc start hbase
    refine ihRest hc.advance.advance.build start ?_
    exact Numbering.stands_field hbase (hc.advance.token name) (hc.token dot).le
  | index bracket inner close allowed _ ihInner ihRest =>
    intro hc start hbase
    have hc₁ := hc.advance.after (places_of_reads inner)
    have hindex := (ihInner hc.advance).mono (hc.token bracket).le (Nat.le_refl _)
    refine ihRest hc₁.advance.build start ?_
    exact Numbering.stands_index hbase hindex (hc₁.token close) allowed
  | memberCall paren _ inner allowed _ ihInner ihRest =>
    intro hc start hbase
    have hle := (hc.token paren).le
    obtain ⟨hclose, hargs⟩ := ihInner hc.advance
    have hargs := (hargs _ (Nat.le_refl _) Node.allStand_nil).mono hle (Nat.le_refl _)
    refine ihRest (hc.advance.after (places_of_reads inner)) start ?_
    exact Numbering.stands_memberCall hbase hargs (hclose.mono hle (Nat.le_refl _)) allowed
  | number literal => exact fun hc => Node.stands_leaf (hc.token literal) rfl
  | name name _ => exact fun hc => Node.stands_leaf (hc.token name) rfl
  | call name paren _ _ ihInner =>
    intro hc
    have hname := hc.token name
    have hle := (hc.advance.token paren).le
    obtain ⟨hclose, hargs⟩ := ihInner hc.advance.advance
    refine Numbering.stands_call (hname.join_of_le hclose hle) ?_
    exact (hargs _ (Nat.le_refl _) Node.allStand_nil).covered (hname.offset_le_hi.trans hle)
      (Span.offset_le_stop _)
  | method name paren inner _ _ _ ihInner ihBlock =>
    intro hc
    have hname := hc.token name
    have hle := (hc.advance.token paren).le
    obtain ⟨hclose, hargs⟩ := ihInner hc.advance.advance
    have hargs := hargs _ (Nat.le_refl _) Node.allStand_nil
    have hbody := ihBlock (hc.advance.advance.after (places_of_reads inner))
    have hbehind := hargs.mono (Nat.le_refl _) hclose.offset_le_hi
    exact Node.stands_body (hname.mono (Nat.le_refl _) hle) hbehind hbody hclose.le rfl
  | allocation new paren inner _ ihInner ihBlock =>
    intro hc
    have hword := hc.token new
    have hle := (hc.advance.token paren).le
    have hle₁ := hc.advance.advance.offset_le (places_of_reads inner)
    have hfields := ihInner hc.advance.advance _ (Nat.le_refl _) Node.allStand_nil
    have hbody := ihBlock (hc.advance.advance.after (places_of_reads inner))
    exact Node.stands_body (hword.mono (Nat.le_refl _) hle) hfields hbody hle₁ rfl
  | conditional word test first _ ihTest ihFirst ihSecond =>
    intro hc
    have hword := hc.token word
    have hc₁ := hc.advance.after (places_of_reads test)
    have htest := ihTest hc.advance
    have hpositive := ihFirst hc₁
    -- A branch that is absent stands at the other one, so that only its end is known to be behind.
    obtain ⟨hnegative, hstop⟩ := ihSecond (hc₁.after (places_of_reads first)) _ hpositive
    have hoffset := hword.offset_le_hi
    have hbehind := hpositive.span.lo_le.trans ((Span.offset_le_stop _).trans hstop)
    refine Node.stands_mk (hword.join_of_le hnegative.span htest.span.le) ?_
    refine List.forall_mem_cons.2 ⟨⟨htest.sound, ?_⟩, List.forall_mem_cons.2 ⟨⟨hpositive.sound, ?_⟩,
      List.forall_mem_singleton.2 ⟨hnegative.sound, Span.contains_join_right _ _⟩⟩⟩
    · exact Span.contains_join (hoffset.trans htest.span.lo_le) (htest.span.le_hi.trans hbehind)
    · exact Span.contains_join (hoffset.trans (htest.span.le.trans hpositive.span.lo_le)) hstop
  | parenthesised paren inner close ihInner =>
    intro hc
    have hc₁ := hc.advance.after (places_of_reads inner)
    exact (ihInner hc.advance).mono (hc.token paren).le (hc₁.token close).le
  | tuple angle inner _ ihInner ihRest =>
    intro hc
    have hangle := hc.token angle
    have hfirst := ihInner hc.advance
    obtain ⟨hclose, hitems⟩ := ihRest (hc.advance.after (places_of_reads inner))
    have hitems := hitems _ hfirst.span.le
      (Node.allStand_nil.snoc hfirst (Nat.le_refl _) (Nat.le_refl _))
    refine Node.stands_mk (hangle.join_of_le hclose hfirst.span.le) ?_
    exact hitems.covered hangle.offset_le_hi (Span.offset_le_stop _)
  | endComponents angle => exact fun hc => ⟨hc.token angle, fun _ _ h => h⟩
  | component comma one _ ihOne ihRest =>
    intro hc
    have hrest := ihRest (hc.advance.after (places_of_reads one))
    exact hrest.cons (ihOne hc.advance) (hc.token comma).le (Nat.le_refl _)
  | typedFormal name colon type =>
    intro hc
    have hle := hc.advance.advance.offset_le (places_type type)
    refine Node.stands_leaf ((hc.token name).mono (Nat.le_refl _) ?_) rfl
    exact (hc.advance.token colon).le.trans hle
  | argument _ _ ihExpr => exact ihExpr
  | endArguments paren => exact fun hc => ⟨hc.token paren, fun _ _ h => h⟩
  | lastArgument _ one paren ihOne =>
    intro hc
    have harg := ihOne hc
    have hclose := (hc.after (places_of_reads one)).token paren
    refine ⟨hclose.mono harg.span.le (Nat.le_refl _), fun start hstart hbefore => ?_⟩
    exact hbefore.snoc harg hstart (Nat.le_refl _)
  | nextArgument _ one comma _ ihOne ihRest =>
    intro hc
    have hc₁ := hc.after (places_of_reads one)
    exact (ihRest hc₁.advance).cons (ihOne hc) (Nat.le_refl _) (hc₁.token comma).le
  | endStatements brace =>
    intro hc
    have hle := hc.offset_le (Cursor.places_skipSemicolons _)
    have hclose := (hc.after (Cursor.places_skipSemicolons _)).token brace
    exact ⟨hclose.mono hle (Nat.le_refl _), fun _ _ hb => hb.mono (Nat.le_refl _) hle⟩
  | statement _ one _ ihOne ihRest =>
    intro hc
    have hle := hc.offset_le (Cursor.places_skipSemicolons _)
    have hc₁ := hc.after (Cursor.places_skipSemicolons _)
    have hrest := ihRest (hc₁.after (places_of_reads one))
    exact hrest.cons (ihOne hc₁) hle (Nat.le_refl _)
  | block brace _ ihInner =>
    intro hc
    have hopen := hc.token brace
    obtain ⟨hclose, hitems⟩ := ihInner hc.advance
    have hitems := hitems _ (Nat.le_refl _) Node.allStand_nil
    refine Numbering.stands_block (hopen.join_of_le hclose (Nat.le_refl _)) ?_
    exact hitems.mono hopen.le hclose.offset_le_hi
  | noValue _ => exact fun _ _ hplace => Numbering.stands_nil hplace
  | value assign _ ihExpr =>
    intro hc start hplace
    exact (ihExpr hc.advance).mono (hplace.le.trans (hc.token assign).le) (Nat.le_refl _)
  | endInitialisers paren =>
    exact fun hc start _ hb => hb.mono (Nat.le_refl _) (hc.token paren).le
  | lastInitialiser name initial paren ihInitial =>
    intro hc start hstart hbefore
    have hname := hc.token name
    have hvalue := ihInitial hc.advance _ hname
    have hplace := hname.mono (Nat.le_refl _) (hc.advance.offset_le (places_of_reads initial))
    have hle := ((hc.advance.after (places_of_reads initial)).token paren).le
    refine hbefore.snoc (Node.Stands.mono ?_ (Nat.le_refl _) hle) hstart (Nat.le_refl _)
    exact Node.stands_single hvalue.sound (hplace.join hvalue.span) rfl
  | nextInitialiser name initial comma _ ihInitial ihRest =>
    intro hc start hstart hbefore
    have hname := hc.token name
    have hvalue := ihInitial hc.advance _ hname
    have hplace := hname.mono (Nat.le_refl _) (hc.advance.offset_le (places_of_reads initial))
    have hc₁ := hc.advance.after (places_of_reads initial)
    have hle := (hc₁.token comma).le
    have hnext := hstart.trans (hvalue.span.le.trans hle)
    refine ihRest hc₁.build.advance start hnext ?_
    refine hbefore.snoc (Node.Stands.mono ?_ (Nat.le_refl _) hle) hstart (Nat.le_refl _)
    exact Node.stands_single hvalue.sound (hplace.join hvalue.span) rfl
  | noOtherwise _ =>
    exact fun _ _ hpositive => ⟨Node.stands_leaf hpositive.span rfl, Nat.le_refl _⟩
  | otherwise word _ ihBlock =>
    intro hc start hpositive
    have hblock := ihBlock hc.advance
    have hle := (hc.token word).le
    refine ⟨hblock.mono (hpositive.span.le.trans hle) (Nat.le_refl _), ?_⟩
    exact hpositive.span.le_hi.trans (hle.trans (hblock.span.lo_le.trans (Span.offset_le_stop _)))

/-! ## Proof chains -/

variable {ss : List Span} {c : Cursor} {lo : Nat}

theorem read_of_expr {d : Bool} {p : Parsed c.size Node} (h : expr d c = .ok p)
    (hc : c.Placed ss) : p.rest.places <:+ c.places ∧
      p.value.Stands ss c.span.offset p.rest.span.offset :=
  ⟨places_of_reads (reads_of_expr h), stands_of_reads (reads_of_expr h) hc⟩

/-- The terms and hints of a chain that is being read stand where the chain does. -/
structure Chain.Stands (ss : List Span) (lo hi : Nat) (chain : Chain) : Prop where
  span : chain.span.Stands ss lo hi
  parts : ∀ k ∈ chain.terms ++ chain.hints.filterMap id,
    k.Sound ss ∧ chain.span.Contains k.span

/-- The hint of a further term stands between the terms so far and that term. -/
theorem Chain.Stands.snoc {mid mid' mid'' hi : Nat} {chain : Chain} (h : chain.Stands ss lo mid)
    {hint : Option Node} {term : Node} {verbatim : String}
    (hhint : ∀ k ∈ hint, k.Stands ss mid' mid'') (hterm : term.Stands ss mid'' hi)
    (hle : mid ≤ mid') (hle' : mid' ≤ mid'') :
    Chain.Stands ss lo hi { terms := chain.terms ++ [term], hints := chain.hints ++ [hint],
                            verbatims := chain.verbatims ++ [verbatim],
                            span := chain.span.join term.span } := by
  have hchain := Span.contains_join_left chain.span term.span
  have hold : ∀ k ∈ chain.terms ++ chain.hints.filterMap id,
      k.Sound ss ∧ (chain.span.join term.span).Contains k.span := fun k hk =>
    ⟨(h.parts k hk).1, hchain.trans (h.parts k hk).2⟩
  refine ⟨h.span.join_of_le hterm.span (hle.trans hle'), fun k hk => ?_⟩
  simp only [List.filterMap_append, List.mem_append] at hk
  rcases hk with (hk | hk) | hk | hk
  · exact hold k (List.mem_append_left _ hk)
  · obtain rfl := List.mem_singleton.1 hk
    exact ⟨hterm.sound, Span.contains_join_right _ _⟩
  · exact hold k (List.mem_append_right _ hk)
  · have hk : k ∈ hint := by simpa [eq_comm] using hk
    obtain ⟨hsound, hspan⟩ := hhint k hk
    refine ⟨hsound, Span.contains_join ?_ ?_⟩
    · exact h.span.offset_le_hi.trans (hle.trans hspan.lo_le)
    · exact hspan.le_hi.trans (hterm.span.lo_le.trans (Span.offset_le_stop _))

theorem places_verbatim (c : Cursor) : c.verbatim.rest.places <:+ c.places := by
  unfold Cursor.verbatim
  split
  · exact c.places_advance
  · exact List.suffix_refl _

theorem read_of_hint {p : Parsed (c.size + 1) (Option Node × String)} (h : annotation c = .ok p)
    (hc : c.Placed ss) : p.rest.places <:+ c.places ∧
      ∀ k ∈ p.value.1, k.Stands ss c.span.offset p.rest.span.offset := by
  unfold annotation at h
  split at h
  · next hopen =>
    obtain ⟨hint, hhint, h⟩ := ok_of_bind h
    obtain ⟨close, hclose, h⟩ := ok_of_bind h
    obtain rfl := Except.ok.inj h
    obtain ⟨-, rfl⟩ := Cursor.of_symbol hclose
    obtain ⟨hplaces, hstands⟩ := read_of_expr hhint hc.advance
    have hbehind : hint.rest.advance.verbatim.rest.places <:+ hint.rest.places :=
      (places_verbatim _).trans hint.rest.places_advance
    refine ⟨hbehind.trans (hplaces.trans c.places_advance), fun k hk => ?_⟩
    obtain rfl := Option.mem_some.1 hk
    exact hstands.mono (hc.token hopen).le ((hc.advance.after hplaces).offset_le hbehind)
  · obtain rfl := Except.ok.inj h
    exact ⟨List.suffix_refl _, fun k hk => absurd hk (Option.not_mem_none k)⟩

theorem read_of_arrows {chain : Chain} : chain.Stands ss lo c.span.offset → c.Placed ss →
    ∀ {p : Parsed (c.size + 1) Chain}, arrows chain c = .ok p →
      p.rest.places <:+ c.places ∧ p.value.Stands ss lo p.rest.span.offset := by
  fun_induction arrows chain c with
  | case1 => intro _ _ p hp; contradiction
  | case2 => intro _ _ p hp; contradiction
  | case3 => intro _ _ p hp; contradiction
  | case4 chain c ht _ note hn _ term hterm _ all hall _ ih =>
    intro hchain hc p hp
    obtain rfl := Except.ok.inj hp
    obtain ⟨hnote, hhint⟩ := read_of_hint hn hc.advance
    have hc₁ := hc.advance.after hnote
    obtain ⟨hplaces, hstands⟩ := read_of_expr hterm hc₁
    have hle := (hc.token ht).le
    have hle₁ := hc.advance.offset_le hnote
    have hlonger : Chain.Stands ss lo term.rest.span.offset
        { terms := chain.terms ++ [term.value], hints := chain.hints ++ [note.value.1],
          verbatims := chain.verbatims ++ [note.value.2],
          span := chain.span.join term.value.span } := by
      exact hchain.snoc hhint hstands hle hle₁
    obtain ⟨hrest, hall⟩ := ih hlonger (hc₁.after hplaces) hall
    exact ⟨hrest.trans (hplaces.trans (hnote.trans c.places_advance)), hall⟩
  | case5 chain c ht =>
    intro hchain _ p hp
    obtain rfl := Except.ok.inj hp
    exact ⟨List.suffix_refl _, hchain⟩

theorem read_of_chainFrom {first : Node} {p : Parsed (c.size + 1) Node}
    (h : chainFrom first c = .ok p) (hfirst : first.Stands ss lo c.span.offset) (hc : c.Placed ss) :
    p.rest.places <:+ c.places ∧ p.value.Stands ss lo p.rest.span.offset := by
  obtain ⟨chain, hchain, h⟩ := ok_of_bind h
  obtain rfl := Except.ok.inj h
  have hstart : Chain.Stands ss lo c.span.offset
      { terms := [first], hints := [], verbatims := [], span := first.span } := by
    refine ⟨hfirst.span, ?_⟩
    simpa using ⟨hfirst.sound, first.span.contains_refl⟩
  obtain ⟨hplaces, hstands⟩ := read_of_arrows hstart hc hchain
  refine ⟨hplaces, Node.stands_mk hstands.span ?_⟩
  simpa [Shape.children] using hstands.parts

/-! ## Scripts -/

theorem read_of_assertion {place : Span} {p : Parsed c.size Node} (h : assertion place c = .ok p)
    (hplace : place.Stands ss lo c.span.offset) (hc : c.Placed ss) :
    p.rest.places <:+ c.places ∧ p.value.Stands ss lo p.rest.span.offset := by
  obtain ⟨condition, hcondition, h⟩ := ok_of_bind h
  obtain rfl := Except.ok.inj h
  obtain ⟨hplaces, hstands⟩ := read_of_expr hcondition hc
  have hspan := hplace.join_of_le hstands.span (Nat.le_refl _)
  exact ⟨hplaces, Node.stands_single hstands.sound hspan rfl⟩

theorem read_of_assumption {place : Span} {p : Parsed c.size Node} (h : assumption place c = .ok p)
    (hplace : place.Stands ss lo c.span.offset) (hc : c.Placed ss) :
    p.rest.places <:+ c.places ∧ p.value.Stands ss lo p.rest.span.offset := by
  obtain ⟨first, hfirst, h⟩ := ok_of_bind h
  split at h
  · obtain ⟨chain, hchain, h⟩ := ok_of_bind h
    dsimp only at h
    split at h
    · obtain rfl := Except.ok.inj h
      obtain ⟨hplaces, hstands⟩ := read_of_expr hfirst hc
      obtain ⟨hplaces₁, hstands₁⟩ := read_of_chainFrom hchain hstands (hc.after hplaces)
      have hspan := hplace.join_of_le hstands₁.span (Nat.le_refl _)
      exact ⟨hplaces₁.trans hplaces, Node.stands_single hstands₁.sound hspan rfl⟩
    · contradiction
  · contradiction

theorem read_of_statementOrChain {p : Parsed c.size Node} (h : statementOrChain c = .ok p)
    (hc : c.Placed ss) : p.rest.places <:+ c.places ∧
      p.value.Stands ss c.span.offset p.rest.span.offset := by
  obtain ⟨first, hfirst, h⟩ := ok_of_bind h
  split at h
  · obtain ⟨chain, hchain, h⟩ := ok_of_bind h
    obtain rfl := Except.ok.inj h
    obtain ⟨hplaces, hstands⟩ := read_of_expr hfirst hc
    obtain ⟨hplaces₁, hstands₁⟩ := read_of_chainFrom hchain hstands (hc.after hplaces)
    exact ⟨hplaces₁.trans hplaces, hstands₁⟩
  · obtain rfl := Except.ok.inj h
    exact read_of_expr hfirst hc

theorem read_of_item {p : Parsed c.size Node} (h : item c = .ok p) (hc : c.Placed ss) :
    p.rest.places <:+ c.places ∧ p.value.Stands ss c.span.offset p.rest.span.offset := by
  unfold item at h
  split at h
  · next hk =>
    obtain ⟨all, hall, h⟩ := ok_of_bind h
    obtain rfl := Except.ok.inj h
    obtain ⟨hplaces, hstands⟩ := read_of_assertion hall (hc.token hk) hc.advance
    exact ⟨hplaces.trans c.places_advance, hstands⟩
  split at h
  · next hk =>
    obtain ⟨all, hall, h⟩ := ok_of_bind h
    obtain rfl := Except.ok.inj h
    obtain ⟨hplaces, hstands⟩ := read_of_assumption hall (hc.token hk) hc.advance
    exact ⟨hplaces.trans c.places_advance, hstands⟩
  · exact read_of_statementOrChain h hc

theorem sound_of_items : c.Placed ss → ∀ {ns : List Node} {c' : Cursor},
    items c = .ok (ns, c') → ∀ n ∈ ns, n.Sound ss := by
  fun_induction items c with
  | case1 | case2 =>
    intro _ ns c' h n hn
    obtain ⟨rfl, -⟩ := Prod.mk.inj (Except.ok.inj h)
    exact absurd hn List.not_mem_nil
  | case3 | case4 => intro _ ns c' h; contradiction
  | case5 =>
    rename_i first hfirst _ rest _ hrest ih
    intro hc ns c' h n hn
    obtain ⟨rfl, -⟩ := Prod.mk.inj (Except.ok.inj h)
    have hskip := hc.after (Cursor.places_skipSemicolons _)
    obtain ⟨hplaces, hstands⟩ := read_of_item hfirst hskip
    rcases List.mem_cons.1 hn with rfl | hn
    · exact hstands.sound
    · exact ih (hskip.after hplaces) hrest n hn

/-- A place that is joined with those of some trees covers all of them. -/
theorem fold_join {ns : List Node} : ∀ {s : Span}, s.Bounded ss → (∀ n ∈ ns, n.Sound ss) →
    let all := ns.foldl (fun s n => s.join n.span) s
    all.Bounded ss ∧ all.Contains s ∧ ∀ n ∈ ns, all.Contains n.span := by
  induction ns with
  | nil => exact fun hs _ => ⟨hs, Span.contains_refl _, fun _ hn => absurd hn List.not_mem_nil⟩
  | cons n ns ih =>
    intro s hs hns
    obtain ⟨hn, hns⟩ := List.forall_mem_cons.1 hns
    obtain ⟨hbounded, hcontains, hall⟩ := ih (hs.join hn.root.1) hns
    refine ⟨hbounded, hcontains.trans (Span.contains_join_left _ _), ?_⟩
    exact List.forall_mem_cons.2 ⟨hcontains.trans (Span.contains_join_right _ _), hall⟩

theorem sound_of_script {tokens : List Token} {n : Node} (h : script tokens = .ok n)
    (hstart : (Cursor.start tokens).Placed ss) : n.Sound ss := by
  obtain ⟨⟨items, rest⟩, hitems, h⟩ := ok_of_bind h
  obtain rfl := Except.ok.inj h
  have hsound := sound_of_items hstart hitems
  obtain ⟨hbounded, -, hcontains⟩ := fold_join (Span.bounded_of_mem hstart.span_mem) hsound
  exact Node.everywhere_mk.2 ⟨⟨hbounded, hcontains⟩, hsound⟩

theorem sound_of_soleExpr {tokens : List Token} {n : Node} (h : soleExpr tokens = .ok n)
    (hstart : (Cursor.start tokens).Placed ss) : n.Sound ss := by
  obtain ⟨all, hall, h⟩ := ok_of_bind h
  split at h
  · obtain rfl := Except.ok.inj h
    exact (read_of_expr hall hstart).2.sound
  · contradiction

end Grammar

/-! ## Source texts -/

namespace Node

variable {source : String} {n : Node}

theorem sound_of_read (h : ofScript source = .ok n ∨ ofExpr source = .ok n) :
    ∃ tokens, Token.scan source = .ok tokens ∧ n.Sound (tokens.map Token.span) := by
  rcases h with h | h
  · obtain ⟨tokens, htokens, h⟩ := readWith_ok_iff.1 h
    exact ⟨tokens, htokens, Grammar.sound_of_script h (Token.placed_start htokens)⟩
  · obtain ⟨tokens, htokens, h⟩ := readWith_ok_iff.1 h
    exact ⟨tokens, htokens, Grammar.sound_of_soleExpr h (Token.placed_start htokens)⟩

end Node

end ProofScript
