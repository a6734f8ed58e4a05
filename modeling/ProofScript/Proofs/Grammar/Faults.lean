import ProofScript.Proofs.Grammar.Spans

/-!
# Where faults are reported

The place of a fault starts where some token starts and stops where some token stops. Most faults
are reported at the next token, and the others at a node that has been read. So no place lies
outside the source text, or splits one of its characters, and the same holds of the faults that the
scanner reports.
-/

namespace ProofScript

variable {α β : Type} {ss : List Span}

/-- The fault of a reading that fails is reported at a place with the ends of some spans `ss`. -/
def FailsWithin (ss : List Span) (x : Except ParseError α) : Prop :=
  ∀ e, x = .error e → e.span.Bounded ss

section

variable {x : Except ParseError α} {f : α → Except ParseError β}

theorem failsWithin_ok {a : α} : FailsWithin ss (.ok a) := fun _ h => nomatch h

theorem failsWithin_error {e : ParseError} (h : e.span.Bounded ss) :
    FailsWithin ss (.error e : Except ParseError α) := by
  rintro _ ⟨⟩
  exact h

theorem FailsWithin.bind (hx : FailsWithin ss x)
    (hf : ∀ a, x = .ok a → FailsWithin ss (f a)) : FailsWithin ss (x >>= f) := by
  cases x with
  | error e => exact failsWithin_error (hx e rfl)
  | ok a => exact hf a rfl

end

/-! ## Single tokens -/

namespace Cursor.Placed

variable {c : Cursor}

theorem unexpected (hc : c.Placed ss) (wanted : Wanted) :
    (c.unexpected wanted).span.Bounded ss :=
  Span.bounded_of_mem hc.span_mem

theorem symbol (hc : c.Placed ss) (s : Symbol) : FailsWithin ss (c.symbol s) := by
  unfold Cursor.symbol
  split
  · exact failsWithin_ok
  · exact failsWithin_error (hc.unexpected _)

theorem keyword (hc : c.Placed ss) (k : Keyword) : FailsWithin ss (c.keyword k) := by
  unfold Cursor.keyword
  split
  · exact failsWithin_ok
  · exact failsWithin_error (hc.unexpected _)

theorem name (hc : c.Placed ss) : FailsWithin ss c.name := by
  unfold Cursor.name
  split
  · exact failsWithin_ok
  · exact failsWithin_error (hc.unexpected _)
  · exact failsWithin_error (Span.bounded_of_mem hc.span_mem)

end Cursor.Placed

namespace Grammar

variable {n : Nat} {c : Cursor}

/-! ## Types -/

/-- A reader of types reports its faults at places with the ends of some spans `ss`. -/
def TypeReader.FailsWithin (ss : List Span) (type : TypeReader n) : Prop :=
  ∀ {c : Cursor} {h : c.size < n}, c.Placed ss → ProofScript.FailsWithin ss (type c h)

theorem failsWithin_typesAfter {bound : Nat} {type : TypeReader n} (ht : type.FailsWithin ss)
    (hgo : type.Advances) {items : List VarType} {h : c.size < bound} {hb : bound ≤ n} :
    c.Placed ss → FailsWithin ss (typesAfter type items c h hb) := by
  fun_induction typesAfter type items c h hb with
  | case1 items c h hc _ e he => exact fun hplaced => failsWithin_error (ht hplaced.advance e he)
  | case2 items c h hc _ item hitem _ ih =>
    intro hplaced
    exact ih (hplaced.advance.after (places_of_iterate (hgo hitem)))
  | case3 => exact fun _ => failsWithin_ok

theorem failsWithin_typeStep {type : TypeReader n} (ht : type.FailsWithin ss)
    (hgo : type.Advances) : (typeStep type).FailsWithin ss := by
  intro c h hc
  unfold typeStep
  split
  · exact failsWithin_ok
  split
  · refine (ht hc.advance).bind fun first hfirst => ?_
    have hc₁ := hc.advance.after (places_of_iterate (hgo hfirst))
    refine (failsWithin_typesAfter ht hgo hc₁).bind fun items hitems => ?_
    have hc₂ := hc₁.after (places_of_iterate (advances_typesAfter hgo hitems))
    exact (hc₂.symbol _).bind fun _ _ => failsWithin_ok
  · exact failsWithin_error (hc.unexpected _)

theorem failsWithin_type (hc : c.Placed ss) : FailsWithin ss (type c) := by
  have hall : ∀ n, (typeBelow n).FailsWithin ss := by
    intro n
    induction n with
    | zero => exact fun {_ h} => absurd h (Nat.not_lt_zero _)
    | succ n ih => exact failsWithin_typeStep ih (advances_typeBelow n)
  exact hall _ hc

/-! ## Lists between brackets -/

/-- Two readers report their faults at places with the ends of some spans `ss`. -/
structure Readers.FailWithin (ss : List Span) (readers : Readers n) : Prop where
  expr : ∀ {d : Bool} {c : Cursor} {h : c.size < n}, c.Placed ss →
    FailsWithin ss (readers.expr d c h)
  sum : ∀ {d : Bool} {c : Cursor} {h : c.size < n}, c.Placed ss →
    FailsWithin ss (readers.sum d c h)

section Readers

variable {readers : Readers n} {decls : Bool}

theorem failsWithin_closedExpr (hr : readers.Sound) (hf : readers.FailWithin ss) {close : Symbol}
    {h : c.size < n} (hc : c.Placed ss) : FailsWithin ss (closedExpr readers close c h) := by
  refine (hf.expr hc).bind fun inner hinner => ?_
  have hc₁ := hc.after (places_of_reads (hr.expr hinner))
  exact (hc₁.symbol _).bind fun _ _ => failsWithin_ok

theorem failsWithin_typedFormal (hc : c.Placed ss) : FailsWithin ss (typedFormal c) := by
  refine hc.name.bind fun name hname => ?_
  obtain ⟨text, hk, rfl⟩ := Cursor.of_name hname
  refine (hc.advance.symbol _).bind fun colon hcolon => ?_
  obtain ⟨hk', rfl⟩ := Cursor.of_symbol hcolon
  exact (failsWithin_type hc.advance.advance).bind fun _ _ => failsWithin_ok

theorem failsWithin_argument (hf : readers.FailWithin ss) {h : c.size < n} (hc : c.Placed ss) :
    FailsWithin ss (argument readers c h) := by
  unfold argument
  split
  · exact failsWithin_typedFormal hc
  · exact hf.expr hc

theorem failsWithin_arguments (hr : readers.Sound) (hf : readers.FailWithin ss) {args : List Node}
    {h : c.size < n} : c.Placed ss → FailsWithin ss (arguments readers args c h) := by
  fun_induction arguments readers args c h with
  | case1 => exact fun _ => failsWithin_ok
  | case2 args c h hc e he =>
    exact fun hplaced => failsWithin_error (failsWithin_argument hf hplaced e he)
  | case3 => exact fun _ => failsWithin_ok
  | case4 args c h hc arg harg _ hk e he =>
    intro hplaced
    have hc₁ := hplaced.after (places_of_reads (reads_of_argument hr harg))
    exact failsWithin_error (hc₁.symbol _ e he)
  | case5 args c h hc arg harg _ hk comma hcomma _ e he ih =>
    intro hplaced
    have hc₁ := hplaced.after (places_of_reads (reads_of_argument hr harg))
    obtain ⟨hk', rfl⟩ := Cursor.of_symbol hcomma
    exact failsWithin_error (ih hc₁.advance e he)
  | case6 => exact fun _ => failsWithin_ok

theorem failsWithin_statements (hr : readers.Sound) (hf : readers.FailWithin ss)
    {items : List Node} {h : c.size < n} :
    c.Placed ss → FailsWithin ss (statements readers items c h) := by
  fun_induction statements readers items c h with
  | case1 => exact fun _ => failsWithin_ok
  | case2 items c h _ hc e he =>
    intro hplaced
    exact failsWithin_error (hf.expr (hplaced.after c.places_skipSemicolons) e he)
  | case3 items c h _ hc item hitem _ e he ih =>
    intro hplaced
    have hc₁ := hplaced.after c.places_skipSemicolons
    exact failsWithin_error (ih (hc₁.after (places_of_reads (hr.expr hitem))) e he)
  | case4 => exact fun _ => failsWithin_ok

theorem failsWithin_block (hr : readers.Sound) (hf : readers.FailWithin ss) {h : c.size ≤ n}
    (hc : c.Placed ss) : FailsWithin ss (block readers c h) := by
  refine (hc.symbol _).bind fun brace hbrace => ?_
  obtain ⟨hk, rfl⟩ := Cursor.of_symbol hbrace
  exact (failsWithin_statements hr hf hc.advance).bind fun _ _ => failsWithin_ok

/-! ## Primary expressions -/

theorem failsWithin_initialValue (hf : readers.FailWithin ss) {h : c.size < n} {place : Span}
    (hc : c.Placed ss) : FailsWithin ss (initialValue readers c h place) := by
  unfold initialValue
  split
  · exact (hf.expr hc.advance).bind fun _ _ => failsWithin_ok
  · exact failsWithin_ok

theorem failsWithin_initialisers (hr : readers.Sound) (hf : readers.FailWithin ss)
    {fields : List Node} {h : c.size < n} :
    c.Placed ss → FailsWithin ss (initialisers readers fields c h) := by
  fun_induction initialisers readers fields c h with
  | case1 => exact fun _ => failsWithin_ok
  | case2 fields c h hc e he => exact fun hplaced => failsWithin_error (hplaced.name e he)
  | case3 fields c h hc name hname _ place e he =>
    intro hplaced
    obtain ⟨text, hk, rfl⟩ := Cursor.of_name hname
    exact failsWithin_error (failsWithin_initialValue hf hplaced.advance e he)
  | case4 => exact fun _ => failsWithin_ok
  | case5 fields c h hc name hname _ place value hvalue field _ hk e he =>
    intro hplaced
    obtain ⟨text, hk, rfl⟩ := Cursor.of_name hname
    have hread := reads_of_initialValue hr hvalue
    have hc₁ := hplaced.advance.after (places_of_reads hread)
    exact failsWithin_error (hc₁.build.symbol _ e he)
  | case6 =>
    rename_i fields c h hc name hname _ place value hvalue field _ hk comma hcomma _ e he ih
    intro hplaced
    obtain ⟨text, hk, rfl⟩ := Cursor.of_name hname
    have hread := reads_of_initialValue hr hvalue
    have hc₁ := hplaced.advance.after (places_of_reads hread)
    obtain ⟨hk', rfl⟩ := Cursor.of_symbol hcomma
    exact failsWithin_error (ih hc₁.build.advance e he)
  | case7 => exact fun _ => failsWithin_ok

theorem failsWithin_allocation (hr : readers.Sound) (hf : readers.FailWithin ss) {h : c.size ≤ n}
    (hc : c.Placed ss) : FailsWithin ss (allocation readers c h) := by
  refine (hc.keyword _).bind fun word hword => ?_
  obtain ⟨hk, rfl⟩ := Cursor.of_keyword hword
  refine (hc.advance.symbol _).bind fun paren hparen => ?_
  obtain ⟨hk', rfl⟩ := Cursor.of_symbol hparen
  refine (failsWithin_initialisers hr hf hc.advance.advance).bind fun fields hfields => ?_
  have hc₁ := hc.advance.advance.after (places_of_reads (reads_of_initialisers hr hfields))
  exact (failsWithin_block hr hf hc₁).bind fun _ _ => failsWithin_ok

theorem failsWithin_otherwise (hr : readers.Sound) (hf : readers.FailWithin ss) {positive : Node}
    {h : c.size < n} (hc : c.Placed ss) : FailsWithin ss (otherwise readers positive c h) := by
  unfold otherwise
  split
  · exact (failsWithin_block hr hf hc.advance).bind fun _ _ => failsWithin_ok
  · exact failsWithin_ok

theorem failsWithin_conditional (hr : readers.Sound) (hf : readers.FailWithin ss) {h : c.size ≤ n}
    (hc : c.Placed ss) : FailsWithin ss (conditional readers c h) := by
  refine (hc.keyword _).bind fun word hword => ?_
  obtain ⟨hk, rfl⟩ := Cursor.of_keyword hword
  refine (hf.expr hc.advance).bind fun condition hcondition => ?_
  have hc₁ := hc.advance.after (places_of_reads (hr.expr hcondition))
  refine (failsWithin_block hr hf hc₁).bind fun positive hpositive => ?_
  have hc₂ := hc₁.after (places_of_reads (reads_of_block hr hpositive))
  exact (failsWithin_otherwise hr hf hc₂).bind fun _ _ => failsWithin_ok

theorem failsWithin_components (hr : readers.Sound) (hf : readers.FailWithin ss)
    {items : List Node} {h : c.size < n} :
    c.Placed ss → FailsWithin ss (components readers decls items c h) := by
  fun_induction components readers decls items c h with
  | case1 items c h hm _ e he =>
    exact fun hplaced => failsWithin_error (hf.sum hplaced.advance e he)
  | case2 items c h hm _ item hitem _ e he ih =>
    intro hplaced
    have hc₁ := hplaced.advance.after (places_of_reads (hr.sum hitem))
    exact failsWithin_error (ih hc₁ e he)
  | case3 => exact fun _ => failsWithin_ok
  | case4 => exact fun hplaced => (hplaced.symbol _).bind fun _ _ => failsWithin_ok

theorem failsWithin_tuple (hr : readers.Sound) (hf : readers.FailWithin ss) {h : c.size ≤ n}
    (hc : c.Placed ss) : FailsWithin ss (tuple readers decls c h) := by
  refine (hc.symbol _).bind fun angle hangle => ?_
  obtain ⟨hk, rfl⟩ := Cursor.of_symbol hangle
  refine (hf.sum hc.advance).bind fun first hfirst => ?_
  have hc₁ := hc.advance.after (places_of_reads (hr.sum hfirst))
  exact (failsWithin_components hr hf hc₁).bind fun _ _ => failsWithin_ok

/-- A formal that is no name is reported where it stands. -/
theorem failsWithin_callOrMethod (hr : readers.Sound) (hf : readers.FailWithin ss) {name : String}
    {place : Span} {h : c.size < n} (hc : c.Placed ss) :
    FailsWithin ss (callOrMethod readers decls name place c h) := by
  refine (hc.symbol _).bind fun paren hparen => ?_
  obtain ⟨hk, rfl⟩ := Cursor.of_symbol hparen
  refine (failsWithin_arguments hr hf hc.advance).bind fun args hargs => ?_
  have hread := reads_of_arguments hr hargs
  obtain ⟨-, hstand⟩ := stands_of_reads hread hc.advance
  split
  · split
    · next bad hbad =>
      have hmem := List.mem_of_find?_eq_some hbad
      exact failsWithin_error (hstand _ (Nat.le_refl _) Node.allStand_nil bad hmem).span.bounded
    · have hc₁ := hc.advance.after (places_of_reads hread)
      exact (failsWithin_block hr hf hc₁).bind fun _ _ => failsWithin_ok
  · exact failsWithin_ok

theorem failsWithin_parenthesised (hr : readers.Sound) (hf : readers.FailWithin ss)
    {h : c.size ≤ n} (hc : c.Placed ss) : FailsWithin ss (parenthesised readers c h) := by
  refine (hc.symbol _).bind fun paren hparen => ?_
  obtain ⟨hk, rfl⟩ := Cursor.of_symbol hparen
  exact (failsWithin_closedExpr hr hf hc.advance).bind fun _ _ => failsWithin_ok

theorem failsWithin_primary (hr : readers.Sound) (hf : readers.FailWithin ss) {h : c.size ≤ n}
    (hc : c.Placed ss) : FailsWithin ss (primary readers decls c h) := by
  unfold primary
  split
  · exact failsWithin_ok
  · split
    · exact (failsWithin_callOrMethod hr hf hc.advance).bind fun _ _ => failsWithin_ok
    · exact failsWithin_ok
  · exact failsWithin_allocation hr hf hc
  · exact failsWithin_conditional hr hf hc
  · exact failsWithin_parenthesised hr hf hc
  · exact failsWithin_tuple hr hf hc
  all_goals exact failsWithin_error (hc.unexpected _)

/-! ## Accessors and operators -/

theorem failsWithin_index {base i : Node} {close : Span} (hbase : base.span.Bounded ss)
    (hclose : close.Bounded ss) : FailsWithin ss (Numbering.index base i close) := by
  have hspan := hbase.join hclose
  unfold Numbering.index
  dsimp only
  split
  · split
    · exact failsWithin_ok
    · exact failsWithin_error hspan
  · exact failsWithin_ok
  · exact failsWithin_error hspan

theorem failsWithin_memberCall {target : Node} {args : List Node} {close : Span}
    (htarget : target.span.Bounded ss) (hclose : close.Bounded ss) :
    FailsWithin ss (Numbering.memberCall target args close) := by
  have hspan := htarget.join hclose
  unfold Numbering.memberCall
  dsimp only
  split
  · split
    · exact failsWithin_ok
    · exact failsWithin_error hspan
  · exact failsWithin_error hspan

/-- The accessors are read one by one, and each is applied to a node that has been read. -/
theorem failsWithin_accessors (hr : readers.Sound) (hf : readers.FailWithin ss) {base : Node}
    {start : Nat} {h : c.size < n} : base.Stands ss start c.span.offset → c.Placed ss →
    FailsWithin ss (accessors readers base c h) := by
  fun_induction accessors readers base c h with
  | case1 base c h hd _ e he => exact fun _ hc => failsWithin_error (hc.advance.name e he)
  | case2 =>
    rename_i base c h hd _ name hn field _ e he ih
    intro hbase hc
    obtain ⟨text, hk, rfl⟩ := Cursor.of_name hn
    refine failsWithin_error (ih ?_ hc.advance.advance.build e he)
    exact Numbering.stands_field hbase (hc.advance.token hk) (hc.token hd).le
  | case3 => exact fun _ _ => failsWithin_ok
  | case4 base c h _ hb _ e he =>
    exact fun _ hc => failsWithin_error (failsWithin_closedExpr hr hf hc.advance e he)
  | case5 base c h _ hb _ index hi e he =>
    intro hbase hc
    obtain ⟨c₁, hread, hclose, hspan, hrest⟩ := reads_of_closedExpr hr hi
    have hc₁ := hc.advance.after (places_of_reads hread)
    rw [hspan] at he
    exact failsWithin_error (failsWithin_index hbase.span.bounded (hc₁.token hclose).bounded e he)
  | case6 =>
    rename_i base c h _ hb _ index hi make hm indexed _ e he ih
    intro hbase hc
    obtain ⟨c₁, hread, hclose, hspan, hrest⟩ := reads_of_closedExpr hr hi
    have hc₁ := hc.advance.after (places_of_reads hread)
    have hinner := (stands_of_reads hread hc.advance).mono (hc.token hb).le (Nat.le_refl _)
    rw [hspan] at hm
    have hplaced : index.rest.Placed ss := hrest ▸ hc₁.advance
    refine failsWithin_error (ih ?_ hplaced.build e he)
    show Node.Stands ss start index.rest.span.offset _
    rw [hrest]
    exact Numbering.stands_index hbase hinner (hc₁.token hclose) hm
  | case7 => exact fun _ _ => failsWithin_ok
  | case8 base c h _ _ hb _ e he =>
    exact fun _ hc => failsWithin_error (failsWithin_arguments hr hf hc.advance e he)
  | case9 base c h _ _ hb _ args ha _ e he =>
    intro hbase hc
    obtain ⟨hclose, -⟩ := stands_of_reads (reads_of_arguments hr ha) hc.advance
    exact failsWithin_error (failsWithin_memberCall hbase.span.bounded hclose.bounded e he)
  | case10 =>
    rename_i base c h _ _ hb _ args ha _ call hm e he ih
    intro hbase hc
    have hread := reads_of_arguments hr ha
    have hle := (hc.token hb.1).le
    obtain ⟨hclose, hargs⟩ := stands_of_reads hread hc.advance
    have hargs := (hargs _ (Nat.le_refl _) Node.allStand_nil).mono hle (Nat.le_refl _)
    refine failsWithin_error (ih ?_ (hc.advance.after (places_of_reads hread)) e he)
    exact Numbering.stands_memberCall hbase hargs (hclose.mono hle (Nat.le_refl _)) hm
  | case11 => exact fun _ _ => failsWithin_ok
  | case12 => exact fun _ _ => failsWithin_ok

theorem failsWithin_postfixed (hr : readers.Sound) (hf : readers.FailWithin ss) {h : c.size ≤ n}
    (hc : c.Placed ss) : FailsWithin ss (postfixed readers decls c h) := by
  refine (failsWithin_primary hr hf hc).bind fun base hbase => ?_
  have hread := reads_of_primary hr hbase
  have hc₁ := hc.after (places_of_reads hread)
  exact (failsWithin_accessors hr hf (stands_of_reads hread hc) hc₁).bind fun _ _ => failsWithin_ok

theorem failsWithin_signed (hr : readers.Sound) (hf : readers.FailWithin ss) {h : c.size ≤ n} :
    c.Placed ss → FailsWithin ss (signed readers decls c h) := by
  fun_induction signed readers decls c h with
  | case1 => exact failsWithin_postfixed hr hf
  | case2 c h op hk _ e he ih => exact fun hc => failsWithin_error (ih hc.advance e he)
  | case3 => exact fun _ => failsWithin_ok

/-- A reader of operands reports its faults at places with the ends of some spans `ss`. -/
def Operand.FailsWithin (ss : List Span) (operand : Operand n) : Prop :=
  ∀ {c : Cursor} {h : c.size ≤ n}, c.Placed ss → ProofScript.FailsWithin ss (operand c h)

theorem failsWithin_operatorsAfter {l : Level} {operand : Operand n}
    (ho : operand.Sound l.operand decls) (hf : operand.FailsWithin ss) {left : Node}
    {h : c.size < n} :
    c.Placed ss → FailsWithin ss (operatorsAfter l.operator? operand left c h) := by
  fun_induction operatorsAfter l.operator? operand left c h with
  | case1 => exact fun _ => failsWithin_ok
  | case2 left c h op hk _ e he => exact fun hc => failsWithin_error (hf hc.advance e he)
  | case3 =>
    rename_i left c h op hk _ right hright both _ e he ih
    intro hc
    have hc₁ := hc.advance.after (places_of_reads (ho hright))
    exact failsWithin_error (ih hc₁.build e he)
  | case4 => exact fun _ => failsWithin_ok

theorem failsWithin_leftLevel {l : Level} {d : Bool} {operand : Operand n}
    (ho : operand.Sound l.operand d) (hf : operand.FailsWithin ss) :
    (leftLevel l.operator? operand).FailsWithin ss := by
  intro c h hc
  refine (hf hc).bind fun left hleft => ?_
  have hc₁ := hc.after (places_of_reads (ho hleft))
  exact (failsWithin_operatorsAfter ho hf hc₁).bind fun _ _ => failsWithin_ok

theorem failsWithin_product (hr : readers.Sound) (hf : readers.FailWithin ss) :
    (product readers decls).FailsWithin ss := by
  refine failsWithin_leftLevel (l := .product) (d := decls) ?_ ?_
  · exact reads_of_signed hr
  · exact failsWithin_signed hr hf

theorem failsWithin_sum (hr : readers.Sound) (hf : readers.FailWithin ss) :
    (sum readers decls).FailsWithin ss := by
  refine failsWithin_leftLevel (l := .sum) (d := decls) ?_ (failsWithin_product hr hf)
  exact reads_of_leftLevel (l := .product) rfl (reads_of_signed hr)

/-- A second comparison is reported at its operator. -/
theorem failsWithin_comparison (hr : readers.Sound) (hf : readers.FailWithin ss) :
    (comparison readers decls).FailsWithin ss := by
  intro c h hc
  refine (failsWithin_sum hr hf hc).bind fun left hleft => ?_
  have hc₁ := hc.after (places_of_reads (reads_of_sum hr hleft))
  split
  · exact failsWithin_ok
  · refine (failsWithin_sum hr hf hc₁.advance).bind fun right hright => ?_
    have hc₂ := hc₁.advance.after (places_of_reads (reads_of_sum hr hright))
    split
    · exact failsWithin_error (Span.bounded_of_mem hc₂.span_mem)
    · exact failsWithin_ok

/-- An assignment to something else than a place is reported at what is assigned, and a second
assignment at its operator. -/
theorem failsWithin_assignment (hr : readers.Sound) (hf : readers.FailWithin ss) :
    (assignment readers decls).FailsWithin ss := by
  intro c h hc
  refine (failsWithin_comparison hr hf hc).bind fun target htarget => ?_
  have hread := reads_of_comparison hr htarget
  have hc₁ := hc.after (places_of_reads hread)
  split
  · split
    · refine (failsWithin_comparison hr hf hc₁.advance).bind fun value hvalue => ?_
      have hc₂ := hc₁.advance.after (places_of_reads (reads_of_comparison hr hvalue))
      split
      · exact failsWithin_error (Span.bounded_of_mem hc₂.span_mem)
      · exact failsWithin_ok
    · have htargetStands : target.value.Stands ss _ _ := stands_of_reads hread hc
      exact failsWithin_error htargetStands.span.bounded
  · exact failsWithin_ok

theorem failsWithin_logic (hr : readers.Sound) (hf : readers.FailWithin ss) :
    (logic readers decls).FailsWithin ss :=
  failsWithin_leftLevel (l := .logic) (reads_of_assignment hr) (failsWithin_assignment hr hf)

end Readers

/-! ## The whole grammar -/

theorem readersBelow_failWithin (n : Nat) : (readersBelow n).FailWithin ss := by
  induction n with
  | zero =>
    exact ⟨fun {_ _ h} => absurd h (Nat.not_lt_zero _), fun {_ _ h} => absurd h (Nat.not_lt_zero _)⟩
  | succ n ih =>
    have hsound := readersBelow_sound n
    exact ⟨fun hc => failsWithin_logic hsound ih hc, fun hc => failsWithin_sum hsound ih hc⟩

theorem failsWithin_expr {decls : Bool} (hc : c.Placed ss) : FailsWithin ss (expr decls c) :=
  failsWithin_logic (readersBelow_sound c.size) (readersBelow_failWithin c.size) hc

/-! ## Scripts -/

theorem failsWithin_hint (hc : c.Placed ss) : FailsWithin ss ( annotation c) := by
  unfold annotation
  split
  · refine (failsWithin_expr hc.advance).bind fun hint hhint => ?_
    have hc₁ := hc.advance.after (read_of_expr hhint hc.advance).1
    exact (hc₁.symbol _).bind fun _ _ => failsWithin_ok
  · exact failsWithin_ok

theorem failsWithin_arrows {chain : Chain} :
    c.Placed ss → FailsWithin ss (arrows chain c) := by
  fun_induction arrows chain c with
  | case1 chain c ht _ e he =>
    exact fun hc => failsWithin_error (failsWithin_hint hc.advance e he)
  | case2 chain c ht _ note hnote _ e he =>
    intro hc
    have hc₁ := hc.advance.after (read_of_hint hnote hc.advance).1
    exact failsWithin_error (failsWithin_expr hc₁ e he)
  | case3 chain c ht _ note hnote _ term hterm _ e he ih =>
    intro hc
    have hc₁ := hc.advance.after (read_of_hint hnote hc.advance).1
    exact failsWithin_error (ih (hc₁.after (read_of_expr hterm hc₁).1) e he)
  | case4 => exact fun _ => failsWithin_ok
  | case5 => exact fun _ => failsWithin_ok

theorem failsWithin_chainFrom {first : Node} (hc : c.Placed ss) :
    FailsWithin ss (chainFrom first c) :=
  (failsWithin_arrows hc).bind fun _ _ => failsWithin_ok

theorem failsWithin_assertion {place : Span} (hc : c.Placed ss) :
    FailsWithin ss (assertion place c) :=
  (failsWithin_expr hc).bind fun _ _ => failsWithin_ok

/-- An assumption of too many terms is reported at its chain. -/
theorem failsWithin_assumption {place : Span} (hc : c.Placed ss) :
    FailsWithin ss (assumption place c) := by
  refine (failsWithin_expr hc).bind fun first hfirst => ?_
  obtain ⟨hplaces, hstands⟩ := read_of_expr hfirst hc
  have hc₁ := hc.after hplaces
  split
  · refine (failsWithin_chainFrom hc₁).bind fun chain hchain => ?_
    dsimp only
    split
    · exact failsWithin_ok
    · exact failsWithin_error (read_of_chainFrom hchain hstands hc₁).2.span.bounded
  · exact failsWithin_error (hc₁.unexpected _)

theorem failsWithin_statementOrChain (hc : c.Placed ss) :
    FailsWithin ss (statementOrChain c) := by
  refine (failsWithin_expr hc).bind fun first hfirst => ?_
  have hc₁ := hc.after (read_of_expr hfirst hc).1
  split
  · exact (failsWithin_chainFrom hc₁).bind fun _ _ => failsWithin_ok
  · exact failsWithin_ok

theorem failsWithin_item (hc : c.Placed ss) : FailsWithin ss (item c) := by
  unfold item
  split
  · exact (failsWithin_assertion hc.advance).bind fun _ _ => failsWithin_ok
  split
  · exact (failsWithin_assumption hc.advance).bind fun _ _ => failsWithin_ok
  · exact failsWithin_statementOrChain hc

theorem failsWithin_items : c.Placed ss → FailsWithin ss (items c) := by
  fun_induction items c with
  | case1 | case2 => exact fun _ => failsWithin_ok
  | case3 =>
    rename_i e he
    intro hc
    exact failsWithin_error (failsWithin_item (hc.after (Cursor.places_skipSemicolons _)) e he)
  | case4 =>
    rename_i first hfirst _ e he ih
    intro hc
    have hskip := hc.after (Cursor.places_skipSemicolons _)
    exact failsWithin_error (ih (hskip.after (read_of_item hfirst hskip).1) e he)
  | case5 => exact fun _ => failsWithin_ok

variable {tokens : List Token}

theorem failsWithin_script (hstart : (Cursor.start tokens).Placed ss) :
    FailsWithin ss (script tokens) :=
  (failsWithin_items hstart).bind fun _ _ => failsWithin_ok

theorem failsWithin_soleExpr (hstart : (Cursor.start tokens).Placed ss) :
    FailsWithin ss (soleExpr tokens) := by
  refine (failsWithin_expr hstart).bind fun all hall => ?_
  split
  · exact failsWithin_ok
  · exact failsWithin_error ((hstart.after (read_of_expr hall hstart).1).unexpected _)

end Grammar

/-! ## Source texts -/

section

variable {source : String} {s : Span}

theorem Span.OnBoundaries.stop_le (h : s.OnBoundaries source) : s.stop ≤ source.utf8ByteSize :=
  h.2.le_utf8ByteSize

/-- A place with the ends of some tokens splits no character. -/
theorem Span.Bounded.onBoundaries {ts : List Token} (h : s.Bounded (ts.map Token.span))
    (hscan : Token.scan source = .ok ts) : s.OnBoundaries source := by
  have hwhole := (Token.covering_of_scan hscan).whole
  obtain ⟨⟨a, ha, hoffset⟩, b, hb, hstop⟩ := h
  obtain ⟨t, ht, rfl⟩ := List.mem_map.1 ha
  obtain ⟨u, hu, rfl⟩ := List.mem_map.1 hb
  rw [Span.OnBoundaries, hoffset, hstop]
  exact ⟨(hwhole t ht).1, (hwhole u hu).2⟩

end

namespace Token

variable {source : String} {cs : List Char} {offset : Nat} {e : ScanError}

/-- A fault of the scanner is reported at the first characters of what is left. -/
theorem exists_width_of_fault (offset : Nat) (c : Char) (cs : List Char) (fault : ScanFault) :
    ∃ text behind, c :: cs = text ++ behind ∧
      ScanFault.span offset c cs fault = ⟨offset, width text⟩ := by
  cases fault with
  | illegalCharacter x => exact ⟨[c], cs, rfl, by rw [width_cons]; rfl⟩
  | numberOutOfRange =>
    refine ⟨c :: cs.takeWhile Text.isDigit, cs.dropWhile Text.isDigit, ?_, rfl⟩
    rw [List.cons_append, List.takeWhile_append_dropWhile]
  | unterminatedVerbatim => exact ⟨c :: cs, [], (List.append_nil _).symm, rfl⟩

theorem cuts_of_scanFrom_error : ∀ {before : List Char}, source.toList = before ++ cs →
    offset = width before → scanFrom offset cs = .error e →
    ∃ before text behind, e.span.Cuts source before text behind := by
  fun_induction scanFrom offset cs with
  | case1 => intro before _ _ h; contradiction
  | case2 offset c cs fault hfault =>
    intro before hsource hoffset h
    obtain rfl := Except.error.inj h
    obtain ⟨text, behind, hsplit, hspan⟩ := exists_width_of_fault offset c cs fault
    refine ⟨before, text, behind, by rw [hsource, hsplit], ?_⟩
    rw [← hoffset]
    exact hspan
  | case3 =>
    rename_i l hl _ _ fault hfault ih
    intro before hsource hoffset h
    obtain rfl := Except.error.inj h
    have hsource' : source.toList = before ++ l.text ++ l.rest := by
      rw [hsource, ← lexeme?_append hl, List.append_assoc]
    exact ih hsource' (by rw [width_append, hoffset]) hfault
  | case4 => intro before _ _ h; contradiction

end Token

namespace Node

variable {source : String} {e : SyntaxError}

theorem onBoundaries_of_readWith {grammar : List Token → Except ParseError Node}
    (hgrammar : ∀ {ss : List Span} {tokens : List Token}, (Cursor.start tokens).Placed ss →
      FailsWithin ss (grammar tokens))
    (h : readWith grammar source = .error e) : e.span.OnBoundaries source := by
  unfold readWith at h
  split at h
  · next fault hscan =>
    obtain rfl := Except.error.inj h
    have hsource : source.toList = [] ++ source.toList := rfl
    obtain ⟨before, text, behind, hcuts⟩ := Token.cuts_of_scanFrom_error hsource rfl hscan
    exact hcuts.onBoundaries
  · next tokens hscan =>
    split at h
    · next fault hfault =>
      obtain rfl := Except.error.inj h
      have hbounded := hgrammar (Token.placed_start hscan) fault hfault
      exact hbounded.onBoundaries hscan
    · contradiction

/-- The places of a text that is read, as a script or as an expression, are sound. Every node of the
tree starts where some token starts, stops where some token stops, lies within the text, and covers
its children. A fault of the scanner or of the grammar lies within the text, and splits no
character. -/
theorem placed_of_read (source : String) :
    (∀ n, ofScript source = .ok n ∨ ofExpr source = .ok n →
      ∃ tokens, Token.scan source = .ok tokens ∧ n.Everywhere fun m =>
        m.span.Bounded (tokens.map Token.span) ∧ m.span.stop ≤ source.utf8ByteSize ∧
        ∀ k ∈ m.children, m.span.Contains k.span) ∧
    ∀ e, ofScript source = .error e ∨ ofExpr source = .error e →
      e.span.stop ≤ source.utf8ByteSize ∧ e.span.OnBoundaries source := by
  constructor
  · intro n h
    obtain ⟨tokens, hscan, hsound⟩ := sound_of_read h
    refine ⟨tokens, hscan, hsound.imp fun m ⟨hbounded, hcontains⟩ => ?_⟩
    exact ⟨hbounded, (hbounded.onBoundaries hscan).stop_le, hcontains⟩
  · intro e h
    have hboundaries : e.span.OnBoundaries source := by
      rcases h with h | h
      · exact onBoundaries_of_readWith Grammar.failsWithin_script h
      · exact onBoundaries_of_readWith Grammar.failsWithin_soleExpr h
    exact ⟨hboundaries.stop_le, hboundaries⟩

/-- A script with a hint and parts that are absent, a value that is indexed twice, and a verbatim
block that is not closed. -/
theorem placed_of_read_faults :
    let script := "//é\nif a { } ~ [f(-1)] (new (x) { m(y) { x = y; y } }).g"
    let indexed := "//é\n(a)[1][b];"
    let unclosed := "a ~ \x7b\x7b\x7bé"
    let faults (r : Except SyntaxError Node) :=
      match r with
      | .ok _ => none
      | .error e => some (e.message, e.span)
    (∃ n tokens, ofScript script = .ok n ∧ Token.scan script = .ok tokens ∧ n.Everywhere fun m =>
      m.span.Bounded (tokens.map Token.span) ∧ m.span.stop ≤ script.utf8ByteSize ∧
      ∀ k ∈ m.children, m.span.Contains k.span) ∧
    faults (ofExpr indexed) = some ("parse error: a value can only be indexed once", ⟨6, 8⟩) ∧
    (∃ e, ofExpr indexed = .error e ∧
      e.span.stop ≤ indexed.utf8ByteSize ∧ e.span.OnBoundaries indexed) ∧
    faults (ofScript unclosed) = some
      ("lex error: unterminated verbatim block; expected `\x7d\x7d\x7d`", ⟨4, 5⟩) ∧
    ∃ e, ofScript unclosed = .error e ∧
      e.span.stop ≤ unclosed.utf8ByteSize ∧ e.span.OnBoundaries unclosed := by
  intro script indexed unclosed faults
  obtain ⟨n, hn, -⟩ := ok_of_any (x := ofScript script) (p := fun _ => true) (by decide +kernel)
  obtain ⟨tokens, hscan, hsound⟩ := (placed_of_read script).1 n (.inl hn)
  have hexists : ∀ {r fault}, faults r = some fault → ∃ e, r = .error e := by
    intro r fault h
    cases r with
    | ok n => cases h
    | error e => exact ⟨e, rfl⟩
  have hindexed :
      faults (ofExpr indexed) = some ("parse error: a value can only be indexed once", ⟨6, 8⟩) := by
    decide +kernel +zetaReduce
  have hunclosed : faults (ofScript unclosed) = some
      ("lex error: unterminated verbatim block; expected `\x7d\x7d\x7d`", ⟨4, 5⟩) := by
    decide +kernel +zetaReduce
  obtain ⟨e, he⟩ := hexists hindexed
  obtain ⟨e', he'⟩ := hexists hunclosed
  exact ⟨⟨n, tokens, hn, hscan, hsound⟩, hindexed,
    ⟨e, he, (placed_of_read indexed).2 e (.inr he)⟩, hunclosed,
    e', he', (placed_of_read unclosed).2 e' (.inl he')⟩

end Node

end ProofScript
