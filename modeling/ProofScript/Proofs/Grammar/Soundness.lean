import Mathlib.Logic.Function.Iterate
import ProofScript.Proofs.Action
import ProofScript.Proofs.Grammar.Derivation

/-!
# The readers only accept derivations

Whatever a reader of expressions returns has a derivation (`reads_of_expr`). Each reader is shown to
follow its rule, given that the two readers it starts anew between brackets do; the whole grammar
follows by induction on the bound of the readers.
-/

namespace ProofScript

namespace Cursor

/-- Reading a symbol goes behind that symbol. -/
theorem of_symbol {c : Cursor} {s : Symbol} {p : Parsed c.size Span} (h : c.symbol s = .ok p) :
    ∃ hk : c.kind? = some (.symbol s), p = ⟨c.span, c.advance, size_advance_lt hk⟩ := by
  unfold symbol at h
  split at h
  · next hk => exact ⟨hk, (Except.ok.inj h).symm⟩
  · contradiction

/-- Reading a keyword goes behind that keyword. -/
theorem of_keyword {c : Cursor} {k : Keyword} {p : Parsed c.size Span}
    (h : c.keyword k = .ok p) :
    ∃ hk : c.kind? = some (.keyword k), p = ⟨c.span, c.advance, size_advance_lt hk⟩ := by
  unfold keyword at h
  split at h
  · next hk => exact ⟨hk, (Except.ok.inj h).symm⟩
  · contradiction

/-- Reading a name goes behind that name. -/
theorem of_name {c : Cursor} {p : Parsed c.size (String × Span)} (h : c.name = .ok p) :
    ∃ (text : String) (hk : c.kind? = some (.name text)),
      p = ⟨(text, c.span), c.advance, size_advance_lt hk⟩ := by
  unfold name at h
  split at h
  · next text hk => exact ⟨text, hk, (Except.ok.inj h).symm⟩
  · contradiction
  · contradiction

end Cursor

namespace Grammar

/-! ## Types -/

/-- A reader of types goes behind some tokens and does nothing else. -/
def TypeReader.Advances {n : Nat} (type : TypeReader n) : Prop :=
  ∀ {c : Cursor} {h : c.size < n} {t : Parsed c.size VarType},
    type c h = .ok t → ∃ k, t.rest = Cursor.advance^[k] c

theorem advances_typesAfter {n bound : Nat} {type : TypeReader n} (ht : type.Advances)
    {items : List VarType} {c : Cursor} {h : c.size < bound} {hb : bound ≤ n} :
    ∀ {ts : Parsed bound (List VarType)}, typesAfter type items c h hb = .ok ts →
      ∃ k, ts.rest = Cursor.advance^[k] c := by
  fun_induction typesAfter type items c h hb with
  | case1 => intro ts hts; contradiction
  | case2 items c h hc _ item hitem _ ih =>
    intro ts hts
    obtain ⟨k, hk⟩ := ih hts
    obtain ⟨j, hj⟩ := ht hitem
    refine ⟨k + j + 1, ?_⟩
    rw [hk, hj, Function.iterate_succ_apply, Function.iterate_add_apply]
  | case3 items c h hc =>
    intro ts hts
    obtain rfl := Except.ok.inj hts
    exact ⟨0, rfl⟩

theorem advances_typeStep {n : Nat} {type : TypeReader n} (ht : type.Advances) :
    (typeStep type).Advances := by
  intro c h t hread
  unfold typeStep at hread
  split at hread
  · obtain rfl := Except.ok.inj hread
    exact ⟨1, rfl⟩
  split at hread
  · obtain ⟨first, hfirst, hread⟩ := ok_of_bind hread
    obtain ⟨items, hitems, hread⟩ := ok_of_bind hread
    obtain ⟨close, hclose, hread⟩ := ok_of_bind hread
    obtain rfl := Except.ok.inj hread
    obtain ⟨-, rfl⟩ := Cursor.of_symbol hclose
    obtain ⟨j, hj⟩ := ht hfirst
    obtain ⟨k, hk⟩ := advances_typesAfter ht hitems
    refine ⟨k + j + 1 + 1, ?_⟩
    show items.rest.advance = _
    rw [Function.iterate_succ_apply', hk, hj, Function.iterate_succ_apply,
      Function.iterate_add_apply]
  · contradiction

theorem advances_typeBelow (n : Nat) : (typeBelow n).Advances := by
  induction n with
  | zero => exact fun {_ h} => absurd h (Nat.not_lt_zero _)
  | succ n ih => exact advances_typeStep ih

theorem advances_type {c : Cursor} {t : Parsed c.size VarType} (h : type c = .ok t) :
    ∃ k, t.rest = Cursor.advance^[k] c :=
  advances_typeBelow _ h

/-! ## Readers that follow the grammar -/

variable {n : Nat} {readers : Readers n} {decls : Bool} {c : Cursor}

/-- The readers that start anew between brackets follow the grammar. -/
structure Readers.Sound (readers : Readers n) : Prop where
  /-- The reader of whole expressions does. -/
  expr : ∀ {d : Bool} {c : Cursor} {h : c.size < n} {p : Parsed c.size Node},
    readers.expr d c h = .ok p → Reads (.level .logic d p.value) c p.rest
  /-- The reader of components does. -/
  sum : ∀ {d : Bool} {c : Cursor} {h : c.size < n} {p : Parsed c.size Node},
    readers.sum d c h = .ok p → Reads (.level .sum d p.value) c p.rest

/-! ## Lists between brackets -/

theorem reads_of_closedExpr (hr : readers.Sound) {close : Symbol} {h : c.size < n}
    {p : Parsed c.size (Node × Span)} (hp : closedExpr readers close c h = .ok p) :
    ∃ c₁, Reads (.level .logic true p.value.1) c c₁ ∧ c₁.kind? = some (.symbol close) ∧
      p.value.2 = c₁.span ∧ p.rest = c₁.advance := by
  obtain ⟨inner, hi, hp⟩ := ok_of_bind hp
  obtain ⟨last, hl, hp⟩ := ok_of_bind hp
  obtain ⟨hk, rfl⟩ := Cursor.of_symbol hl
  obtain rfl := Except.ok.inj hp
  exact ⟨inner.rest, hr.expr hi, hk, rfl, rfl⟩

theorem reads_of_typedFormal {p : Parsed c.size Node} (hp : typedFormal c = .ok p) :
    Reads (.argument p.value) c p.rest := by
  obtain ⟨name, hn, hp⟩ := ok_of_bind hp
  obtain ⟨text, hk, rfl⟩ := Cursor.of_name hn
  obtain ⟨colon, hc, hp⟩ := ok_of_bind hp
  obtain ⟨hc, rfl⟩ := Cursor.of_symbol hc
  obtain ⟨t, ht, hp⟩ := ok_of_bind hp
  obtain rfl := Except.ok.inj hp
  exact .typedFormal hk ‹_› ht

theorem reads_of_argument (hr : readers.Sound) {h : c.size < n} {p : Parsed c.size Node}
    (hp : argument readers c h = .ok p) : Reads (.argument p.value) c p.rest := by
  unfold argument at hp
  split at hp
  · exact reads_of_typedFormal hp
  · next hf => exact .argument (by simpa using hf) (hr.expr hp)

theorem reads_of_arguments (hr : readers.Sound) {args : List Node} {h : c.size < n} :
    ∀ {p : Parsed c.size (List Node × Span)}, arguments readers args c h = .ok p →
      Reads (.arguments args p.value.1 p.value.2) c p.rest := by
  fun_induction arguments readers args c h with
  | case1 args c h hc =>
    intro p hp
    obtain rfl := Except.ok.inj hp
    exact .endArguments hc
  | case2 => intro p hp; contradiction
  | case3 args c h hc arg harg _ hk =>
    intro p hp
    obtain rfl := Except.ok.inj hp
    exact .lastArgument hc (reads_of_argument hr harg) hk
  | case4 => intro p hp; contradiction
  | case5 => intro p hp; contradiction
  | case6 args c h hc arg harg _ hk comma hm _ all hall ih =>
    intro p hp
    obtain rfl := Except.ok.inj hp
    obtain ⟨hk', rfl⟩ := Cursor.of_symbol hm
    exact .nextArgument hc (reads_of_argument hr harg) hk' (ih hall)

theorem reads_of_statements (hr : readers.Sound) {items : List Node} {h : c.size < n} :
    ∀ {p : Parsed c.size (List Node × Span)}, statements readers items c h = .ok p →
      Reads (.statements items p.value.1 p.value.2) c p.rest := by
  fun_induction statements readers items c h with
  | case1 items c h _ hc =>
    intro p hp
    obtain rfl := Except.ok.inj hp
    exact .endStatements hc
  | case2 => intro p hp; contradiction
  | case3 => intro p hp; contradiction
  | case4 items c h _ hc item hi _ all hall _ ih =>
    intro p hp
    obtain rfl := Except.ok.inj hp
    exact .statement hc (hr.expr hi) (ih hall)

theorem reads_of_block (hr : readers.Sound) {h : c.size ≤ n} {p : Parsed c.size Node}
    (hp : block readers c h = .ok p) : Reads (.block p.value) c p.rest := by
  obtain ⟨brace, hb, hp⟩ := ok_of_bind hp
  obtain ⟨hk, rfl⟩ := Cursor.of_symbol hb
  obtain ⟨items, hi, hp⟩ := ok_of_bind hp
  obtain rfl := Except.ok.inj hp
  exact .block hk (reads_of_statements hr hi)

/-! ## Primary expressions -/

theorem reads_of_initialValue (hr : readers.Sound) {h : c.size < n} {place : Span}
    {p : Parsed (c.size + 1) Node} (hp : initialValue readers c h place = .ok p) :
    Reads (.initialValue place p.value) c p.rest := by
  unfold initialValue at hp
  split at hp
  · next ha =>
    obtain ⟨value, hv, hp⟩ := ok_of_bind hp
    obtain rfl := Except.ok.inj hp
    exact .value ha (hr.expr hv)
  · next ha =>
    obtain rfl := Except.ok.inj hp
    exact .noValue ha

theorem reads_of_initialisers (hr : readers.Sound) {fields : List Node} {h : c.size < n} :
    ∀ {p : Parsed c.size (List Node)}, initialisers readers fields c h = .ok p →
      Reads (.initialisers fields p.value) c p.rest := by
  fun_induction initialisers readers fields c h with
  | case1 fields c h hc =>
    intro p hp
    obtain rfl := Except.ok.inj hp
    exact .endInitialisers hc
  | case2 => intro p hp; contradiction
  | case3 => intro p hp; contradiction
  | case4 fields c h hc name hn _ place value hv field _ hk =>
    intro p hp
    obtain rfl := Except.ok.inj hp
    obtain ⟨text, hk', rfl⟩ := Cursor.of_name hn
    exact .lastInitialiser hk' (reads_of_initialValue hr hv) hk
  | case5 => intro p hp; contradiction
  | case6 => intro p hp; contradiction
  | case7 =>
    rename_i name hn _ place value hv field _ _ comma hm _ all hall ih
    intro p hp
    obtain rfl := Except.ok.inj hp
    obtain ⟨text, hk, rfl⟩ := Cursor.of_name hn
    obtain ⟨hc, rfl⟩ := Cursor.of_symbol hm
    exact .nextInitialiser hk (reads_of_initialValue hr hv) hc (ih hall)

theorem reads_of_allocation (hr : readers.Sound) {h : c.size ≤ n} {p : Parsed c.size Node}
    (hp : allocation readers c h = .ok p) : Reads (.primary decls p.value) c p.rest := by
  obtain ⟨word, hw, hp⟩ := ok_of_bind hp
  obtain ⟨hw, rfl⟩ := Cursor.of_keyword hw
  obtain ⟨paren, hk, hp⟩ := ok_of_bind hp
  obtain ⟨hk, rfl⟩ := Cursor.of_symbol hk
  obtain ⟨fields, hf, hp⟩ := ok_of_bind hp
  obtain ⟨body, hb, hp⟩ := ok_of_bind hp
  obtain rfl := Except.ok.inj hp
  exact .allocation ‹_› ‹_› (reads_of_initialisers hr hf) (reads_of_block hr hb)

theorem reads_of_otherwise (hr : readers.Sound) {positive : Node} {h : c.size < n}
    {p : Parsed (c.size + 1) Node} (hp : otherwise readers positive c h = .ok p) :
    Reads (.otherwise positive p.value) c p.rest := by
  unfold otherwise at hp
  split at hp
  · next he =>
    obtain ⟨negative, hn, hp⟩ := ok_of_bind hp
    obtain rfl := Except.ok.inj hp
    exact .otherwise he (reads_of_block hr hn)
  · next he =>
    obtain rfl := Except.ok.inj hp
    exact .noOtherwise he

theorem reads_of_conditional (hr : readers.Sound) {h : c.size ≤ n} {p : Parsed c.size Node}
    (hp : conditional readers c h = .ok p) : Reads (.primary decls p.value) c p.rest := by
  obtain ⟨word, hw, hp⟩ := ok_of_bind hp
  obtain ⟨hw, rfl⟩ := Cursor.of_keyword hw
  obtain ⟨condition, hc, hp⟩ := ok_of_bind hp
  obtain ⟨positive, hpos, hp⟩ := ok_of_bind hp
  obtain ⟨negative, hneg, hp⟩ := ok_of_bind hp
  obtain rfl := Except.ok.inj hp
  exact .conditional ‹_› (hr.expr hc) (reads_of_block hr hpos) (reads_of_otherwise hr hneg)

theorem reads_of_components (hr : readers.Sound) {items : List Node} {h : c.size < n} :
    ∀ {p : Parsed c.size (List Node × Span)}, components readers decls items c h = .ok p →
      Reads (.components decls items p.value.1 p.value.2) c p.rest := by
  fun_induction components readers decls items c h with
  | case1 => intro p hp; contradiction
  | case2 => intro p hp; contradiction
  | case3 items c h hm _ item hi _ all hall ih =>
    intro p hp
    obtain rfl := Except.ok.inj hp
    exact .component hm (hr.sum hi) (ih hall)
  | case4 items c h hm =>
    intro p hp
    obtain ⟨close, hc, hp⟩ := ok_of_bind hp
    obtain ⟨hk, rfl⟩ := Cursor.of_symbol hc
    obtain rfl := Except.ok.inj hp
    exact .endComponents hk

theorem reads_of_tuple (hr : readers.Sound) {h : c.size ≤ n} {p : Parsed c.size Node}
    (hp : tuple readers decls c h = .ok p) : Reads (.primary decls p.value) c p.rest := by
  obtain ⟨angle, ha, hp⟩ := ok_of_bind hp
  obtain ⟨hk, rfl⟩ := Cursor.of_symbol ha
  obtain ⟨first, hf, hp⟩ := ok_of_bind hp
  obtain ⟨items, hi, hp⟩ := ok_of_bind hp
  obtain rfl := Except.ok.inj hp
  exact .tuple hk (hr.sum hf) (reads_of_components hr hi)

theorem reads_of_callOrMethod (hr : readers.Sound) {text : String} {h : c.advance.size < n}
    {p : Parsed c.advance.size Node} (hk : c.kind? = some (.name text))
    (hp : callOrMethod readers decls text c.span c.advance h = .ok p) :
    Reads (.primary decls p.value) c p.rest := by
  obtain ⟨paren, ho, hp⟩ := ok_of_bind hp
  obtain ⟨ho, rfl⟩ := Cursor.of_symbol ho
  obtain ⟨args, ha, hq⟩ := ok_of_bind hp
  have hargs := reads_of_arguments hr ha
  have hbrace : (decls && args.rest.at? .openBrace) = true ↔
      decls = true ∧ args.rest.kind? = some (.symbol .openBrace) := by
    simp [Cursor.at?]
  split at hq
  · next hb =>
    obtain ⟨hd, hb⟩ := hbrace.1 hb
    split at hq
    · contradiction
    · next hall =>
      obtain ⟨body, hbody, hq⟩ := ok_of_bind hq
      obtain rfl := Except.ok.inj hq
      rw [hd]
      refine .method hk ‹_› hargs hb (fun a hm => ?_) (reads_of_block hr hbody)
      simpa using List.find?_eq_none.1 hall a hm
  · next hb =>
    obtain rfl := Except.ok.inj hq
    exact .call hk ‹_› hargs (mt hbrace.2 hb)

theorem reads_of_parenthesised (hr : readers.Sound) {h : c.size ≤ n} {p : Parsed c.size Node}
    (hp : parenthesised readers c h = .ok p) : Reads (.primary decls p.value) c p.rest := by
  obtain ⟨paren, hk, hp⟩ := ok_of_bind hp
  obtain ⟨hk, rfl⟩ := Cursor.of_symbol hk
  obtain ⟨inner, hi, hp⟩ := ok_of_bind hp
  obtain rfl := Except.ok.inj hp
  obtain ⟨c₁, hread, hclose, -, hrest⟩ := reads_of_closedExpr hr hi
  exact hrest ▸ .parenthesised ‹_› hread hclose

theorem reads_of_primary (hr : readers.Sound) {h : c.size ≤ n} {p : Parsed c.size Node}
    (hp : primary readers decls c h = .ok p) : Reads (.primary decls p.value) c p.rest := by
  unfold primary at hp
  split at hp
  · next value hk =>
    obtain rfl := Except.ok.inj hp
    exact .number hk
  · next text hk =>
    split at hp
    · next ho =>
      obtain ⟨call, hc, hp⟩ := ok_of_bind hp
      obtain rfl := Except.ok.inj hp
      exact reads_of_callOrMethod hr hk hc
    · next ho =>
      obtain rfl := Except.ok.inj hp
      exact .name hk (by simpa [Cursor.at?] using ho)
  · exact reads_of_allocation hr hp
  · exact reads_of_conditional hr hp
  · exact reads_of_parenthesised hr hp
  · exact reads_of_tuple hr hp
  all_goals contradiction

/-! ## Accessors and operators -/

theorem reads_of_accessors (hr : readers.Sound) {base : Node} {h : c.size < n} :
    ∀ {p : Parsed (c.size + 1) Node}, accessors readers base c h = .ok p →
      Reads (.accessors base p.value) c p.rest := by
  fun_induction accessors readers base c h with
  | case1 => intro p hp; contradiction
  | case2 => intro p hp; contradiction
  | case3 =>
    rename_i base c h hd _ name hn field _ all hall ih
    intro p hp
    obtain rfl := Except.ok.inj hp
    obtain ⟨text, hk, rfl⟩ := Cursor.of_name hn
    exact .field hd hk (ih hall)
  | case4 => intro p hp; contradiction
  | case5 => intro p hp; contradiction
  | case6 => intro p hp; contradiction
  | case7 =>
    rename_i base c h _ hb _ index hi make hm indexed _ all hall ih
    intro p hp
    obtain rfl := Except.ok.inj hp
    obtain ⟨c₁, hread, hclose, hspan, hrest⟩ := reads_of_closedExpr hr hi
    rw [hspan] at hm
    have := ih hall
    simp only [indexed, Parsed.build, hrest] at this
    exact .index hb hread hclose hm this
  | case8 => intro p hp; contradiction
  | case9 => intro p hp; contradiction
  | case10 => intro p hp; contradiction
  | case11 =>
    rename_i base c h _ _ hb _ args ha _ call hm all hall ih
    intro p hp
    obtain rfl := Except.ok.inj hp
    exact .memberCall hb.1 hb.2 (reads_of_arguments hr ha) hm (ih hall)
  | case12 base c h hd hb hk =>
    intro p hp
    obtain rfl := Except.ok.inj hp
    exact .noAccessor hd hb hk

theorem reads_of_postfixed (hr : readers.Sound) {h : c.size ≤ n} {p : Parsed c.size Node}
    (hp : postfixed readers decls c h = .ok p) :
    Reads (.level .postfixed decls p.value) c p.rest := by
  obtain ⟨base, hb, hp⟩ := ok_of_bind hp
  obtain ⟨all, ha, hp⟩ := ok_of_bind hp
  obtain rfl := Except.ok.inj hp
  exact .postfixed (reads_of_primary hr hb) (reads_of_accessors hr ha)

theorem reads_of_signed (hr : readers.Sound) {h : c.size ≤ n} :
    ∀ {p : Parsed c.size Node}, signed readers decls c h = .ok p →
      Reads (.level .signed decls p.value) c p.rest := by
  fun_induction signed readers decls c h with
  | case1 c h hk =>
    intro p hp
    exact .unsigned hk (reads_of_postfixed hr hp)
  | case2 => intro p hp; contradiction
  | case3 =>
    rename_i c h op hk _ arg harg all _ ih
    intro p hp
    obtain rfl := Except.ok.inj hp
    exact .signed hk (ih harg)

/-- A reader of operands follows the level `l`. -/
def Operand.Sound (operand : Operand n) (l : Level) (decls : Bool) : Prop :=
  ∀ {c : Cursor} {h : c.size ≤ n} {p : Parsed c.size Node},
    operand c h = .ok p → Reads (.level l decls p.value) c p.rest

theorem reads_of_operatorsAfter {l : Level} {operand : Operand n}
    (ho : operand.Sound l.operand decls) {left : Node} {h : c.size < n} :
    ∀ {p : Parsed (c.size + 1) Node}, operatorsAfter l.operator? operand left c h = .ok p →
      Reads (.operators l decls left p.value) c p.rest := by
  fun_induction operatorsAfter l.operator? operand left c h with
  | case1 left c h hk =>
    intro p hp
    obtain rfl := Except.ok.inj hp
    exact .noOperator hk
  | case2 => intro p hp; contradiction
  | case3 => intro p hp; contradiction
  | case4 =>
    rename_i left c h op hk _ right hright both _ all hall _ ih
    intro p hp
    obtain rfl := Except.ok.inj hp
    exact .operator hk (ho hright) (ih hall)

theorem reads_of_leftLevel {l : Level} (hl : l.associates = true) {operand : Operand n}
    (ho : operand.Sound l.operand decls) : (leftLevel l.operator? operand).Sound l decls := by
  intro c h p hp
  obtain ⟨left, hleft, hp⟩ := ok_of_bind hp
  obtain ⟨all, hall, hp⟩ := ok_of_bind hp
  obtain rfl := Except.ok.inj hp
  exact .operands hl (ho hleft) (reads_of_operatorsAfter ho hall)

theorem reads_of_sum (hr : readers.Sound) : (sum readers decls).Sound .sum decls :=
  reads_of_leftLevel (l := .sum) rfl
    (reads_of_leftLevel (l := .product) rfl fun hp => reads_of_signed hr hp)

theorem reads_of_comparison (hr : readers.Sound) :
    (comparison readers decls).Sound .comparison decls := by
  intro c h p hp
  obtain ⟨left, hleft, hp⟩ := ok_of_bind hp
  split at hp
  · next hk =>
    obtain rfl := Except.ok.inj hp
    exact .uncompared (reads_of_sum hr hleft) hk
  · next op hk =>
    obtain ⟨right, hright, hp⟩ := ok_of_bind hp
    split at hp
    · contradiction
    · next hnext =>
      obtain rfl := Except.ok.inj hp
      exact .compared (reads_of_sum hr hleft) hk (reads_of_sum hr hright) (by simpa using hnext)

theorem reads_of_assignment (hr : readers.Sound) :
    (assignment readers decls).Sound .assignment decls := by
  intro c h p hp
  obtain ⟨target, htarget, hp⟩ := ok_of_bind hp
  split at hp
  · next ha =>
    split at hp
    · next hassign =>
      obtain ⟨value, hvalue, hp⟩ := ok_of_bind hp
      split at hp
      · contradiction
      · next hnext =>
        obtain rfl := Except.ok.inj hp
        have hsingle : value.rest.kind? ≠ some (.symbol .assign) := by
          simpa [Cursor.at?] using hnext
        exact .assigned (reads_of_comparison hr htarget) ha hassign
          (reads_of_comparison hr hvalue) hsingle
    · contradiction
  · next ha =>
    obtain rfl := Except.ok.inj hp
    exact .unassigned (reads_of_comparison hr htarget) ha

theorem reads_of_logic (hr : readers.Sound) : (logic readers decls).Sound .logic decls :=
  reads_of_leftLevel (l := .logic) rfl (reads_of_assignment hr)

/-! ## The whole grammar -/

theorem readersBelow_sound (n : Nat) : (readersBelow n).Sound := by
  induction n with
  | zero =>
    exact ⟨fun {_ _ h} => absurd h (Nat.not_lt_zero _), fun {_ _ h} => absurd h (Nat.not_lt_zero _)⟩
  | succ n ih => exact ⟨fun hp => reads_of_logic ih hp, fun hp => reads_of_sum ih hp⟩

/-- What is read as an expression has a derivation. -/
theorem reads_of_expr {p : Parsed c.size Node} (hp : expr decls c = .ok p) :
    Reads (.level .logic decls p.value) c p.rest :=
  reads_of_logic (readersBelow_sound c.size) hp

end Grammar

end ProofScript
