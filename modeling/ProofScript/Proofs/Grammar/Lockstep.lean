import ProofScript.Proofs.Grammar.Comparison
import ProofScript.Proofs.Grammar.Completeness

/-!
# The readers go alike

Started side by side, each reader does the same in both texts.
-/

namespace ProofScript

open Comparison
open Token (Kind)

namespace Comparison

variable {cmp : Comparison} {α β γ : Type} {c d : Cursor} {k : Kind}

/-! ## Single tokens -/

theorem agree_unexpected {P : α → β → Prop} (h : cmp.Beside c d) (wanted : Wanted) :
    cmp.Agree P (.error (c.unexpected wanted)) (.error (d.unexpected wanted)) :=
  agree_error fun he => by rw [Cursor.unexpected, Cursor.unexpected, h.kind?_of_exact he]

theorem alike_symbol (h : cmp.Beside c d) {s : Symbol} (hs : s ≠ .semicolon) :
    cmp.Alike (fun _ => ()) (c.symbol s) (d.symbol s) := by
  refine agree_dite (h.kind?_iff (by simpa using hs)) (fun hc _ => ?_) fun _ _ => ?_
  · exact agree_ok ⟨rfl, h.advance hc (by simp)⟩
  · exact agree_unexpected h _

theorem alike_keyword (h : cmp.Beside c d) {word : Keyword} :
    cmp.Alike (fun _ => ()) (c.keyword word) (d.keyword word) := by
  refine agree_dite (h.kind?_iff (by simp)) (fun hc _ => ?_) fun _ _ => ?_
  · exact agree_ok ⟨rfl, h.advance hc (by simp)⟩
  · exact agree_unexpected h _

theorem alike_name (h : cmp.Beside c d) : cmp.Alike Prod.fst c.name d.name := by
  obtain ⟨hc, hd⟩ := h.kind?_ne_none
  by_cases hname : ∃ text, c.kind? = some (.name text)
  · obtain ⟨text, hname⟩ := hname
    have hname' := (h.kind?_iff (by simp)).1 hname
    rw [Cursor.name_of_kind hname, Cursor.name_of_kind hname']
    exact agree_ok ⟨rfl, h.advance hname (by simp)⟩
  · have hfails : ∀ e : Cursor, e.kind? ≠ none → (¬∃ text, e.kind? = some (.name text)) →
        e.name = .error (e.unexpected .name) := by
      intro e hsome hother
      unfold Cursor.name
      split
      · next text hk => exact absurd ⟨text, hk⟩ hother
      · rfl
      · next hk => exact absurd hk hsome
    have hother : ¬∃ text, d.kind? = some (.name text) := by
      rintro ⟨text, hk⟩
      exact hname ⟨text, (h.kind?_iff (by simp)).2 hk⟩
    rw [hfails c hc hname, hfails d hd hother]
    exact agree_unexpected h _

end Comparison

/-- An induction in which the claim may be used where fewer tokens are left. -/
theorem Cursor.induct {motive : Cursor → Prop}
    (shorter : ∀ c, (∀ c' : Cursor, c'.size < c.size → motive c') → motive c) (c : Cursor) :
    motive c :=
  (measure Cursor.size).wf.induction c shorter

namespace Grammar

variable {cmp : Comparison} {n n' : Nat} {c d : Cursor}

/-! ## Types -/

/-- Two readers of types go alike. -/
def TypeReader.Alike (cmp : Comparison) (type : TypeReader n) (type' : TypeReader n') : Prop :=
  ∀ {c d : Cursor} {h : c.size < n} {h' : d.size < n'}, cmp.Beside c d →
    cmp.Alike (fun t => t) (type c h) (type' d h')

theorem alike_typesAfter {type : TypeReader n} {type' : TypeReader n'}
    (ht : type.Alike cmp type') {bound bound' : Nat} {items : List VarType}
    {h : c.size < bound} {hb : bound ≤ n} {h' : d.size < bound'} {hb' : bound' ≤ n'}
    (hcd : cmp.Beside c d) :
    cmp.Alike (fun ts => ts) (typesAfter type items c h hb) (typesAfter type' items d h' hb') := by
  induction c using Cursor.induct generalizing items d with
  | shorter c ih =>
    rw [typesAfter, typesAfter]
    dsimp only
    refine agree_dite (hcd.kind?_iff (by simp)) (fun hc _ => ?_) fun _ _ => ?_
    · refine (ht (hcd.advance hc (by simp))).elim (fun item item' hitem => ?_)
        (fun _ _ => agree_error) fun _ _ => agree_of_error rfl
      have hvalue : item.value = item'.value := hitem.value
      dsimp only
      rw [hvalue]
      exact ih _ (Nat.lt_trans item.shorter (Cursor.size_advance_lt hc)) hitem.rest
    · exact agree_ok ⟨rfl, hcd⟩

theorem alike_typeStep {type : TypeReader n} {type' : TypeReader n'} (ht : type.Alike cmp type') :
    (typeStep type).Alike cmp (typeStep type') := by
  intro c d h h' hcd
  refine agree_dite (hcd.kind?_iff (by simp)) (fun hc _ => ?_) fun _ _ => ?_
  · exact agree_ok ⟨rfl, hcd.advance hc (by simp)⟩
  refine agree_dite (hcd.kind?_iff (by simp)) (fun hc _ => ?_) fun _ _ => ?_
  · refine (ht (hcd.advance hc (by simp))).bind fun first first' hfirst => ?_
    have hvalue : first.value = first'.value := hfirst.value
    dsimp only
    rw [hvalue]
    refine (alike_typesAfter ht hfirst.rest).bind fun items items' hitems => ?_
    refine (alike_symbol hitems.rest (by simp)).bind fun close close' hclose => ?_
    exact agree_ok ⟨congrArg VarType.tuple hitems.value, hclose.rest⟩
  · exact agree_unexpected hcd _

theorem alike_typeBelow (n n' : Nat) : (typeBelow n).Alike cmp (typeBelow n') := by
  induction n generalizing n' with
  | zero => exact fun {_ _ h} => absurd h (Nat.not_lt_zero _)
  | succ n ih =>
    cases n' with
    | zero => exact fun {_ _ _ h'} => absurd h' (Nat.not_lt_zero _)
    | succ n' => exact alike_typeStep (ih n')

theorem alike_type (hcd : cmp.Beside c d) : cmp.Alike (fun t => t) (type c) (type d) :=
  alike_typeBelow _ _ hcd

/-! ## Lists between brackets -/

/-- Two families of readers go alike, and the first reads no expression at the end of a text. -/
structure Readers.Alike (cmp : Comparison) (readers : Readers n) (readers' : Readers n') :
    Prop where
  /-- The readers of whole expressions go alike. -/
  expr : ∀ {decls : Bool} {c d : Cursor} {h : c.size < n} {h' : d.size < n'}, cmp.Beside c d →
    cmp.Alike cmp.view (readers.expr decls c h) (readers'.expr decls d h')
  /-- The readers of components go alike. -/
  sum : ∀ {decls : Bool} {c d : Cursor} {h : c.size < n} {h' : d.size < n'}, cmp.Beside c d →
    cmp.Alike cmp.view (readers.sum decls c h) (readers'.sum decls d h')
  /-- There is no expression at the end. -/
  ended : ∀ {decls : Bool} {c : Cursor} {h : c.size < n}, c.kind? = some .eof →
    ∃ e, readers.expr decls c h = .error e

/-- What is kept of a list of nodes with a place. -/
abbrev viewList (cmp : Comparison) (p : List Node × Span) : List Node := p.1.map cmp.view

section Readers

variable {readers : Readers n} {readers' : Readers n'} {decls : Bool}

theorem alike_closedExpr (hr : readers.Alike cmp readers') {close : Symbol}
    (hclose : close ≠ .semicolon) {h : c.size < n} {h' : d.size < n'} (hcd : cmp.Beside c d) :
    cmp.Alike (fun p => cmp.view p.1) (closedExpr readers close c h)
      (closedExpr readers' close d h') := by
  refine (hr.expr hcd).bind fun inner inner' hinner => ?_
  refine (alike_symbol hinner.rest hclose).bind fun place place' hplace => ?_
  exact agree_ok ⟨hinner.value, hplace.rest⟩

theorem atTypedFormal_eq (hcd : cmp.Beside c d) : atTypedFormal c = atTypedFormal d := by
  by_cases hname : ∃ text, c.kind? = some (.name text)
  · obtain ⟨text, hname⟩ := hname
    have hname' := (hcd.kind?_iff (by simp)).1 hname
    simp only [atTypedFormal, hname, hname']
    exact (hcd.advance hname (by simp)).at? (by simp)
  · have hfalse : ∀ e : Cursor, (¬∃ text, e.kind? = some (.name text)) →
        atTypedFormal e = false := by
      intro e hother
      unfold atTypedFormal
      split
      · next text hk => exact absurd ⟨text, hk⟩ hother
      · rfl
    have hother : ¬∃ text, d.kind? = some (.name text) := by
      rintro ⟨text, hk⟩
      exact hname ⟨text, (hcd.kind?_iff (by simp)).2 hk⟩
    rw [hfalse c hname, hfalse d hother]

theorem alike_typedFormal (hcd : cmp.Beside c d) :
    cmp.Alike cmp.view (typedFormal c) (typedFormal d) := by
  refine (alike_name hcd).bind fun name name' hname => ?_
  refine (alike_symbol hname.rest (by simp)).bind fun colon colon' hcolon => ?_
  refine (alike_type hcolon.rest).bind fun type type' htype => ?_
  have htext : name.value.1 = name'.value.1 := hname.value
  have hvalue : type.value = type'.value := htype.value
  refine agree_ok (Readings.build htype.rest (builds_node ?_))
  rw [htext, hvalue]

theorem alike_argument (hr : readers.Alike cmp readers') {h : c.size < n} {h' : d.size < n'}
    (hcd : cmp.Beside c d) :
    cmp.Alike cmp.view (argument readers c h) (argument readers' d h') := by
  refine agree_ite (by rw [atTypedFormal_eq hcd]) (fun _ => alike_typedFormal hcd) fun _ => ?_
  exact hr.expr hcd

theorem map_snoc {as bs : List Node} {a b : Node} (h : as.map cmp.view = bs.map cmp.view)
    (hab : cmp.view a = cmp.view b) : (as ++ [a]).map cmp.view = (bs ++ [b]).map cmp.view := by
  rw [List.map_append, List.map_append, h, List.map_singleton, List.map_singleton, hab]

theorem alike_arguments (hr : readers.Alike cmp readers') {args args' : List Node} {h : c.size < n}
    {h' : d.size < n'} (hargs : args.map cmp.view = args'.map cmp.view) (hcd : cmp.Beside c d) :
    cmp.Alike (viewList cmp) (arguments readers args c h) (arguments readers' args' d h') := by
  induction c using Cursor.induct generalizing args args' d with
  | shorter c ih =>
    rw [arguments, arguments]
    dsimp only
    refine agree_dite (hcd.kind?_iff (by simp)) (fun hc _ => ?_) fun _ _ => ?_
    · exact agree_ok ⟨hargs, hcd.advance hc (by simp)⟩
    refine (alike_argument hr hcd).elim (fun arg arg' harg => ?_) (fun _ _ => agree_error)
      fun _ _ => agree_of_error rfl
    have hall := map_snoc hargs harg.value
    dsimp only
    refine agree_dite (harg.rest.kind?_iff (by simp)) (fun hp _ => ?_) fun _ _ => ?_
    · exact agree_ok ⟨hall, harg.rest.advance hp (by simp)⟩
    refine (alike_symbol harg.rest (by simp)).elim (fun comma comma' hcomma => ?_)
      (fun _ _ => agree_error) fun _ _ => agree_of_error rfl
    dsimp only
    refine (ih _ (Nat.lt_trans comma.shorter arg.shorter) hall hcomma.rest).elim ?_
      (fun _ _ => agree_error) fun _ _ => agree_of_error rfl
    exact fun _ _ hrest => agree_ok ⟨hrest.value, hrest.rest⟩

theorem alike_statements (hr : readers.Alike cmp readers') {items items' : List Node}
    {h : c.size < n} {h' : d.size < n'} (hitems : items.map cmp.view = items'.map cmp.view)
    (hcd : cmp.Beside c d) :
    cmp.Alike (viewList cmp) (statements readers items c h) (statements readers' items' d h') := by
  induction c using Cursor.induct generalizing items items' d with
  | shorter c ih =>
    rw [statements, statements]
    dsimp only
    rcases hcd.skipSemicolons with hskip | ⟨he, hend⟩
    · refine agree_dite (hskip.kind?_iff (by simp)) (fun hc _ => ?_) fun _ _ => ?_
      · exact agree_ok ⟨hitems, hskip.advance hc (by simp)⟩
      refine (hr.expr hskip).elim (fun item item' hitem => ?_) (fun _ _ => agree_error)
        fun _ _ => agree_of_error rfl
      have hall := map_snoc hitems hitem.value
      have hlt := Nat.lt_of_lt_of_le item.shorter c.size_skipSemicolons_le
      dsimp only
      refine (ih _ hlt hall hitem.rest).elim ?_ (fun _ _ => agree_error)
        fun _ _ => agree_of_error rfl
      exact fun _ _ hrest => agree_ok ⟨hrest.value, hrest.rest⟩
    · -- The first text ends within the block.
      rw [dif_neg (by simp [hend])]
      have hlt := Nat.lt_of_le_of_lt c.size_skipSemicolons_le h
      obtain ⟨e, hfails⟩ : ∃ e, readers.expr true c.skipSemicolons hlt = .error e := hr.ended hend
      rw [hfails]
      exact agree_of_error rfl he

theorem alike_block (hr : readers.Alike cmp readers') {h : c.size ≤ n} {h' : d.size ≤ n'}
    (hcd : cmp.Beside c d) : cmp.Alike cmp.view (block readers c h) (block readers' d h') := by
  refine (alike_symbol hcd (by simp)).bind fun brace brace' hbrace => ?_
  refine (alike_statements hr rfl hbrace.rest).bind fun items items' hitems => ?_
  exact agree_ok (Readings.build hitems.rest (builds_block hitems.value))

/-! ## Primary expressions -/

theorem alike_initialValue (hr : readers.Alike cmp readers') {h : c.size < n} {h' : d.size < n'}
    {place place' : Span} (hcd : cmp.Beside c d) :
    cmp.Alike cmp.view (initialValue readers c h place) (initialValue readers' d h' place') := by
  refine agree_dite (hcd.kind?_iff (by simp)) (fun hc _ => ?_) fun _ _ => ?_
  · refine (hr.expr (hcd.advance hc (by simp))).bind fun value value' hvalue => ?_
    exact agree_ok ⟨hvalue.value, hvalue.rest⟩
  · exact agree_ok (Readings.build hcd builds_nil)

theorem alike_initialisers (hr : readers.Alike cmp readers') {fields fields' : List Node}
    {h : c.size < n} {h' : d.size < n'} (hfields : fields.map cmp.view = fields'.map cmp.view)
    (hcd : cmp.Beside c d) :
    cmp.Alike (List.map cmp.view) (initialisers readers fields c h)
      (initialisers readers' fields' d h') := by
  induction c using Cursor.induct generalizing fields fields' d with
  | shorter c ih =>
    rw [initialisers, initialisers]
    dsimp only
    refine agree_dite (hcd.kind?_iff (by simp)) (fun hc _ => ?_) fun _ _ => ?_
    · exact agree_ok ⟨hfields, hcd.advance hc (by simp)⟩
    refine (alike_name hcd).elim (fun name name' hname => ?_) (fun _ _ => agree_error)
      fun _ _ => agree_of_error rfl
    dsimp only
    refine (alike_initialValue hr hname.rest).elim (fun value value' hvalue => ?_)
      (fun _ _ => agree_error) fun _ _ => agree_of_error rfl
    dsimp only
    have htext : name.value.1 = name'.value.1 := hname.value
    have hfield : cmp.Readings cmp.view
        ((name.beforeOptional value).build (Numbering.node (name.value.2.join value.value.span)
          (.init name.value.1 value.value false)))
        ((name'.beforeOptional value').build (Numbering.node (name'.value.2.join value'.value.span)
          (.init name'.value.1 value'.value false))) := by
      refine Readings.build hvalue.rest (builds_node ?_)
      rw [Shape.map, Shape.map, htext, hvalue.value]
    have hall := map_snoc hfields hfield.value
    refine agree_dite (hfield.rest.kind?_iff (by simp)) (fun hp _ => ?_) fun _ _ => ?_
    · exact agree_ok ⟨hall, hfield.rest.advance hp (by simp)⟩
    refine (alike_symbol hfield.rest (by simp)).elim (fun comma comma' hcomma => ?_)
      (fun _ _ => agree_error) fun _ _ => agree_of_error rfl
    have hlt := Nat.lt_trans comma.shorter (name.beforeOptional value).shorter
    dsimp only
    refine (ih _ hlt hall hcomma.rest).elim ?_ (fun _ _ => agree_error)
      fun _ _ => agree_of_error rfl
    exact fun _ _ hrest => agree_ok ⟨hrest.value, hrest.rest⟩

theorem alike_allocation (hr : readers.Alike cmp readers') {h : c.size ≤ n} {h' : d.size ≤ n'}
    (hcd : cmp.Beside c d) :
    cmp.Alike cmp.view (allocation readers c h) (allocation readers' d h') := by
  refine (alike_keyword hcd).bind fun word word' hword => ?_
  refine (alike_symbol hword.rest (by simp)).bind fun paren paren' hparen => ?_
  refine (alike_initialisers hr rfl hparen.rest).bind fun fields fields' hfields => ?_
  refine (alike_block hr hfields.rest).bind fun body body' hbody => ?_
  refine agree_ok (Readings.build hbody.rest (builds_node ?_))
  rw [Shape.map, Shape.map, hfields.value, hbody.value]

theorem alike_otherwise (hr : readers.Alike cmp readers') {positive positive' : Node}
    {h : c.size < n} {h' : d.size < n'} (hcd : cmp.Beside c d) :
    cmp.Alike cmp.view (otherwise readers positive c h) (otherwise readers' positive' d h') := by
  refine agree_dite (hcd.kind?_iff (by simp)) (fun hc _ => ?_) fun _ _ => ?_
  · refine (alike_block hr (hcd.advance hc (by simp))).bind fun negative negative' hnegative => ?_
    exact agree_ok ⟨hnegative.value, hnegative.rest⟩
  · exact agree_ok (Readings.build hcd (builds_node rfl))

theorem alike_conditional (hr : readers.Alike cmp readers') {h : c.size ≤ n} {h' : d.size ≤ n'}
    (hcd : cmp.Beside c d) :
    cmp.Alike cmp.view (conditional readers c h) (conditional readers' d h') := by
  refine (alike_keyword hcd).bind fun word word' hword => ?_
  refine (hr.expr hword.rest).bind fun condition condition' hcondition => ?_
  refine (alike_block hr hcondition.rest).bind fun positive positive' hpositive => ?_
  refine (alike_otherwise hr hpositive.rest).bind fun negative negative' hnegative => ?_
  refine agree_ok (Readings.build hnegative.rest (builds_node ?_))
  rw [Shape.map, Shape.map, hcondition.value, hpositive.value, hnegative.value]

theorem alike_components (hr : readers.Alike cmp readers') {items items' : List Node}
    {h : c.size < n} {h' : d.size < n'} (hitems : items.map cmp.view = items'.map cmp.view)
    (hcd : cmp.Beside c d) :
    cmp.Alike (viewList cmp) (components readers decls items c h)
      (components readers' decls items' d h') := by
  induction c using Cursor.induct generalizing items items' d with
  | shorter c ih =>
    rw [components, components]
    dsimp only
    refine agree_dite (hcd.kind?_iff (by simp)) (fun hc _ => ?_) fun _ _ => ?_
    · refine (hr.sum (hcd.advance hc (by simp))).elim (fun item item' hitem => ?_)
        (fun _ _ => agree_error) fun _ _ => agree_of_error rfl
      have hall := map_snoc hitems hitem.value
      have hlt := Nat.lt_trans item.shorter (Cursor.size_advance_lt hc)
      dsimp only
      refine (ih _ hlt hall hitem.rest).elim ?_ (fun _ _ => agree_error)
        fun _ _ => agree_of_error rfl
      exact fun _ _ hrest => agree_ok ⟨hrest.value, hrest.rest⟩
    · refine (alike_symbol hcd (by simp)).bind fun close close' hclose => ?_
      exact agree_ok ⟨hitems, hclose.rest⟩

theorem alike_tuple (hr : readers.Alike cmp readers') {h : c.size ≤ n} {h' : d.size ≤ n'}
    (hcd : cmp.Beside c d) :
    cmp.Alike cmp.view (tuple readers decls c h) (tuple readers' decls d h') := by
  refine (alike_symbol hcd (by simp)).bind fun angle angle' hangle => ?_
  refine (hr.sum hangle.rest).bind fun first first' hfirst => ?_
  have hitems : [first.value].map cmp.view = [first'.value].map cmp.view := by
    rw [List.map_singleton, List.map_singleton, hfirst.value]
  refine (alike_components hr hitems hfirst.rest).bind fun items items' hitems => ?_
  refine agree_ok (Readings.build hitems.rest (builds_node ?_))
  exact congrArg Shape.tuple hitems.value

theorem alike_parenthesised (hr : readers.Alike cmp readers') {h : c.size ≤ n} {h' : d.size ≤ n'}
    (hcd : cmp.Beside c d) :
    cmp.Alike cmp.view (parenthesised readers c h) (parenthesised readers' d h') := by
  refine (alike_symbol hcd (by simp)).bind fun paren paren' hparen => ?_
  refine (alike_closedExpr hr (by simp) hparen.rest).bind fun inner inner' hinner => ?_
  exact agree_ok ⟨hinner.value, hinner.rest⟩

theorem find?_of_view {as bs : List Node} (h : as.map cmp.view = bs.map cmp.view) :
    (as.find? fun a => a.tag != .var).map cmp.view =
      (bs.find? fun b => b.tag != .var).map cmp.view := by
  induction as generalizing bs with
  | nil => rw [List.map_eq_nil_iff.1 h.symm]
  | cons a as ih =>
    obtain ⟨b, bs, rfl, hab, hrest⟩ := List.map_eq_cons_iff.1 h.symm
    rw [List.find?_cons, List.find?_cons, tag_of_view hab]
    split
    · rw [Option.map_some, Option.map_some, hab]
    · exact ih hrest.symm

theorem alike_callOrMethod (hr : readers.Alike cmp readers') {name : String} {place place' : Span}
    {h : c.size < n} {h' : d.size < n'} (hcd : cmp.Beside c d) :
    cmp.Alike cmp.view (callOrMethod readers decls name place c h)
      (callOrMethod readers' decls name place' d h') := by
  refine (alike_symbol hcd (by simp)).bind fun paren paren' hparen => ?_
  refine (alike_arguments hr rfl hparen.rest).bind fun args args' hargs => ?_
  have hvalue : args.value.1.map cmp.view = args'.value.1.map cmp.view := hargs.value
  have hfind := find?_of_view hvalue
  refine agree_ite (by rw [hargs.rest.at? (by simp)]) (fun _ => ?_) fun _ => ?_
  · cases hbad : args.value.1.find? fun a => a.tag != .var with
    | some bad =>
      rw [hbad, Option.map_some] at hfind
      obtain ⟨bad', hbad', -⟩ := Option.map_eq_some_iff.1 hfind.symm
      rw [hbad']
      exact agree_error fun _ => rfl
    | none =>
      rw [hbad, Option.map_none] at hfind
      rw [Option.map_eq_none_iff.1 hfind.symm]
      refine (alike_block hr hargs.rest).bind fun body body' hbody => ?_
      refine agree_ok (Readings.build hbody.rest (builds_node ?_))
      rw [Shape.map, Shape.map, hvalue, hbody.value]
  · exact agree_ok (Readings.build hargs.rest (builds_call hvalue))

/-- Whether a token opens a primary expression. -/
def opensPrimary : Kind → Bool
  | .number _ | .name _ => true
  | .keyword word => word ∈ [Keyword.new, .ifWord]
  | .symbol s => s ∈ [Symbol.openParen, .less]
  | .verbatim _ | .eof => false

theorem opensPrimary_cases {k : Kind} (h : opensPrimary k = true) :
    (∃ value, k = .number value) ∨ (∃ text, k = .name text) ∨ k = .keyword .new ∨
      k = .keyword .ifWord ∨ k = .symbol .openParen ∨ k = .symbol .less := by
  unfold opensPrimary at h
  split at h
  · exact .inl ⟨_, rfl⟩
  · exact .inr (.inl ⟨_, rfl⟩)
  · simpa using h
  · simpa using h
  · cases h
  · cases h

section Primary

variable {h : c.size ≤ n}

theorem primary_number {value : Int64} (hk : c.kind? = some (.number value)) :
    primary readers decls c h =
      .ok ((Parsed.token hk).build (Numbering.node c.span (.const (.int value)))) := by
  unfold primary
  split
  case h_1 value' hk' =>
    obtain rfl : value' = value := by simpa [hk] using hk'.symm
    rfl
  all_goals next hk' => exact absurd (hk.symm.trans hk') (by simp)

theorem primary_name {text : String} (hk : c.kind? = some (.name text)) :
    primary readers decls c h =
      if c.advance.at? .openParen then do
        let call ← callOrMethod readers decls text c.span c.advance (Cursor.size_advance_below h hk)
        return call.behind hk
      else return (Parsed.token hk).build (Numbering.node c.span (.var text none)) := by
  unfold primary
  split
  case h_2 text' hk' =>
    obtain rfl : text' = text := by simpa [hk] using hk'.symm
    rfl
  all_goals next hk' => exact absurd (hk.symm.trans hk') (by simp)

theorem primary_new (hk : c.kind? = some (.keyword .new)) :
    primary readers decls c h = allocation readers c h := by
  unfold primary
  split
  case h_3 => rfl
  all_goals simp_all

theorem primary_ifWord (hk : c.kind? = some (.keyword .ifWord)) :
    primary readers decls c h = conditional readers c h := by
  unfold primary
  split
  case h_4 => rfl
  all_goals simp_all

theorem primary_openParen (hk : c.kind? = some (.symbol .openParen)) :
    primary readers decls c h = parenthesised readers c h := by
  unfold primary
  split
  case h_5 => rfl
  all_goals simp_all

theorem primary_less (hk : c.kind? = some (.symbol .less)) :
    primary readers decls c h = tuple readers decls c h := by
  unfold primary
  split
  case h_6 => rfl
  all_goals simp_all

theorem primary_other {k : Kind} (hk : c.kind? = some k) (hopens : opensPrimary k = false) :
    primary readers decls c h = .error (c.unexpected .expression) := by
  unfold primary
  split
  case h_1 | h_2 | h_3 | h_4 | h_5 | h_6 =>
    next hk' =>
      obtain rfl := Option.some.inj (hk.symm.trans hk')
      cases hopens
  all_goals rfl

end Primary

theorem alike_primary (hr : readers.Alike cmp readers') {h : c.size ≤ n} {h' : d.size ≤ n'}
    (hcd : cmp.Beside c d) :
    cmp.Alike cmp.view (primary readers decls c h) (primary readers' decls d h') := by
  rcases hcd.kind? with hkind | ⟨he, hc, -⟩
  · cases hk : c.kind? with
    | none => exact absurd hk hcd.kind?_ne_none.1
    | some k =>
      have hk' : d.kind? = some k := hkind ▸ hk
      by_cases hopens : opensPrimary k = true
      · have hadvance : k ≠ .eof → cmp.Beside c.advance d.advance := hcd.advance hk
        rcases opensPrimary_cases hopens with ⟨value, rfl⟩ | ⟨text, rfl⟩ | rfl | rfl | rfl | rfl
        · rw [primary_number hk, primary_number hk']
          exact agree_ok (Readings.build (hadvance (by simp)) (builds_node rfl))
        · have hnext := hadvance (by simp)
          rw [primary_name hk, primary_name hk']
          refine agree_ite (by rw [hnext.at? (by simp)]) (fun _ => ?_) fun _ => ?_
          · refine (alike_callOrMethod hr hnext).bind fun call call' hcall => ?_
            exact agree_ok ⟨hcall.value, hcall.rest⟩
          · exact agree_ok (Readings.build hnext (builds_node rfl))
        · rw [primary_new hk, primary_new hk']
          exact alike_allocation hr hcd
        · rw [primary_ifWord hk, primary_ifWord hk']
          exact alike_conditional hr hcd
        · rw [primary_openParen hk, primary_openParen hk']
          exact alike_parenthesised hr hcd
        · rw [primary_less hk, primary_less hk']
          exact alike_tuple hr hcd
      · rw [primary_other hk (by simpa using hopens), primary_other hk' (by simpa using hopens)]
        exact agree_unexpected hcd _
  · rw [primary_other hc rfl]
    exact agree_of_error rfl he

/-! ## Accessors and operators -/

theorem alike_accessors (hr : readers.Alike cmp readers') {base base' : Node} {h : c.size < n}
    {h' : d.size < n'} (hbase : cmp.view base = cmp.view base') (hcd : cmp.Beside c d) :
    cmp.Alike cmp.view (accessors readers base c h) (accessors readers' base' d h') := by
  induction c using Cursor.induct generalizing base base' d with
  | shorter c ih =>
    rw [accessors, accessors]
    dsimp only
    refine agree_dite (hcd.kind?_iff (by simp)) (fun hc _ => ?_) fun _ _ => ?_
    · -- A field access.
      have hl := Cursor.size_advance_lt hc
      refine (alike_name (hcd.advance hc (by simp))).elim (fun name name' hname => ?_)
        (fun _ _ => agree_error) fun _ _ => agree_of_error rfl
      have htext : name.value.1 = name'.value.1 := hname.value
      dsimp only
      rw [htext]
      have hfield : cmp.Readings cmp.view
          (name.build (Numbering.field base name'.value.1 name.value.2))
          (name'.build (Numbering.field base' name'.value.1 name'.value.2)) :=
        Readings.build hname.rest (builds_field hbase)
      refine (ih _ (Nat.lt_trans (name.build _).shorter hl) hfield.value hfield.rest).elim ?_
        (fun _ _ => agree_error) fun _ _ => agree_of_error rfl
      exact fun _ _ hall => agree_ok ⟨hall.value, hall.rest⟩
    refine agree_dite (hcd.kind?_iff (by simp)) (fun hc _ => ?_) fun _ _ => ?_
    · -- An index.
      have hl := Cursor.size_advance_lt hc
      refine (alike_closedExpr hr (by simp) (hcd.advance hc (by simp))).elim
        (fun index index' hindex => ?_) (fun _ _ => agree_error) fun _ _ => agree_of_error rfl
      dsimp only
      refine (agree_index hbase hindex.value).elim (fun make make' hmake => ?_)
        (fun _ _ => agree_error) fun _ _ => agree_of_error rfl
      have hindexed := Readings.build hindex.rest hmake
      dsimp only
      have hlt := Nat.lt_trans (index.build make).shorter hl
      refine (ih _ hlt hindexed.value hindexed.rest).elim ?_ (fun _ _ => agree_error)
        fun _ _ => agree_of_error rfl
      exact fun _ _ hall => agree_ok ⟨hall.value, hall.rest⟩
    refine agree_dite (and_congr (hcd.kind?_iff (by simp)) (by rw [tag_of_view hbase]))
      (fun hc _ => ?_) fun _ _ => ?_
    · -- A call of a method.
      have hl := Cursor.size_advance_lt hc.1
      refine (alike_arguments hr rfl (hcd.advance hc.1 (by simp))).elim (fun args args' hargs => ?_)
        (fun _ _ => agree_error) fun _ _ => agree_of_error rfl
      dsimp only
      refine (agree_memberCall hbase hargs.value).elim (fun call call' hcall => ?_)
        (fun _ _ => agree_error) fun _ _ => agree_of_error rfl
      dsimp only
      refine (ih _ (Nat.lt_trans args.shorter hl) hcall hargs.rest).elim ?_
        (fun _ _ => agree_error) fun _ _ => agree_of_error rfl
      exact fun _ _ hall => agree_ok ⟨hall.value, hall.rest⟩
    · exact agree_ok ⟨hbase, hcd⟩

theorem alike_postfixed (hr : readers.Alike cmp readers') {h : c.size ≤ n} {h' : d.size ≤ n'}
    (hcd : cmp.Beside c d) :
    cmp.Alike cmp.view (postfixed readers decls c h) (postfixed readers' decls d h') := by
  refine (alike_primary hr hcd).bind fun base base' hbase => ?_
  refine (alike_accessors hr hbase.value hbase.rest).bind fun all all' hall => ?_
  exact agree_ok ⟨hall.value, hall.rest⟩

theorem alike_signed (hr : readers.Alike cmp readers') {h : c.size ≤ n} {h' : d.size ≤ n'}
    (hcd : cmp.Beside c d) :
    cmp.Alike cmp.view (signed readers decls c h) (signed readers' decls d h') := by
  induction c using Cursor.induct generalizing d with
  | shorter c ih =>
    have hop := hcd.kind?_bind (p := prefixOperator?) rfl rfl
    rw [signed, signed]
    split
    · next hk =>
      split
      · exact alike_postfixed hr hcd
      · next hk' => simp [hk, hk'] at hop
    · next op hk =>
      split
      · next hk' => simp [hk, hk'] at hop
      · next op' hk' =>
        obtain rfl : op = op' := by simpa [hk, hk'] using hop
        obtain ⟨k, hkind, hprefix⟩ := Option.bind_eq_some_iff.1 hk
        have hnext : cmp.Beside c.advance d.advance := by
          refine hcd.advance hkind ?_
          rintro rfl
          cases hprefix
        dsimp only
        refine (ih _ (Cursor.size_advance_lt hkind) hnext).elim (fun arg arg' harg => ?_)
          (fun _ _ => agree_error) fun _ _ => agree_of_error rfl
        have hall : cmp.Readings cmp.view (arg.build (Numbering.unary op c.span arg.value))
            (arg'.build (Numbering.unary op d.span arg'.value)) :=
          Readings.build harg.rest (builds_unary harg.value)
        exact agree_ok ⟨hall.value, hall.rest⟩

/-- Two readers of operands go alike. -/
def Operand.Alike (cmp : Comparison) (operand : Operand n) (operand' : Operand n') : Prop :=
  ∀ {c d : Cursor} {h : c.size ≤ n} {h' : d.size ≤ n'}, cmp.Beside c d →
    cmp.Alike cmp.view (operand c h) (operand' d h')

section Operators

variable {op? : Kind → Option Symbol} {operand : Operand n} {operand' : Operand n'}

/-- Behind an operator two readings are still side by side. -/
theorem beside_of_operator {op : Symbol} (heof : op? .eof = none) (hcd : cmp.Beside c d)
    (hk : c.kind?.bind op? = some op) :
    cmp.Beside c.advance d.advance ∧ c.advance.size < c.size := by
  obtain ⟨k, hkind, hop⟩ := Option.bind_eq_some_iff.1 hk
  refine ⟨hcd.advance hkind ?_, Cursor.size_advance_lt hkind⟩
  rintro rfl
  cases heof.symm.trans hop

theorem alike_operatorsAfter (heof : op? .eof = none) (hsemicolon : op? (.symbol .semicolon) = none)
    (ho : operand.Alike cmp operand') {left left' : Node} {h : c.size < n} {h' : d.size < n'}
    (hleft : cmp.view left = cmp.view left') (hcd : cmp.Beside c d) :
    cmp.Alike cmp.view (operatorsAfter op? operand left c h)
      (operatorsAfter op? operand' left' d h') := by
  induction c using Cursor.induct generalizing left left' d with
  | shorter c ih =>
    have hop := hcd.kind?_bind heof hsemicolon
    rw [operatorsAfter, operatorsAfter]
    split
    · next hk =>
      split
      · exact agree_ok ⟨hleft, hcd⟩
      · next hk' => simp [hk, hk'] at hop
    · next op hk =>
      split
      · next hk' => simp [hk, hk'] at hop
      · next op' hk' =>
        obtain rfl : op = op' := by simpa [hk, hk'] using hop
        obtain ⟨hnext, hlt⟩ := beside_of_operator heof hcd hk
        dsimp only
        refine (ho hnext).elim (fun right right' hright => ?_) (fun _ _ => agree_error)
          fun _ _ => agree_of_error rfl
        have hboth : cmp.Readings cmp.view
            (right.build (Numbering.binary op.spelling left right.value))
            (right'.build (Numbering.binary op.spelling left' right'.value)) :=
          Readings.build hright.rest (builds_binary hleft hright.value)
        dsimp only
        refine (ih _ (Nat.lt_trans (right.build _).shorter hlt) hboth.value hboth.rest).elim ?_
          (fun _ _ => agree_error) fun _ _ => agree_of_error rfl
        exact fun _ _ hall => agree_ok ⟨hall.value, hall.rest⟩

theorem alike_leftLevel (heof : op? .eof = none) (hsemicolon : op? (.symbol .semicolon) = none)
    (ho : operand.Alike cmp operand') :
    (leftLevel op? operand).Alike cmp (leftLevel op? operand') := by
  intro c d h h' hcd
  refine (ho hcd).bind fun left left' hleft => ?_
  refine (alike_operatorsAfter heof hsemicolon ho hleft.value hleft.rest).bind ?_
  exact fun all all' hall => agree_ok ⟨hall.value, hall.rest⟩

end Operators

theorem alike_sum (hr : readers.Alike cmp readers') :
    (sum readers decls).Alike cmp (sum readers' decls) :=
  alike_leftLevel rfl rfl (alike_leftLevel rfl rfl (alike_signed hr))

theorem alike_comparison (hr : readers.Alike cmp readers') :
    (comparison readers decls).Alike cmp (comparison readers' decls) := by
  intro c d h h' hcd
  refine (alike_sum hr hcd).bind fun left left' hleft => ?_
  have hop := hleft.rest.kind?_bind (p := comparison?) rfl rfl
  dsimp only
  split
  · next hk =>
    split
    · exact agree_ok ⟨hleft.value, hleft.rest⟩
    · next hk' => simp [hk, hk'] at hop
  · next op hk =>
    split
    · next hk' => simp [hk, hk'] at hop
    · next op' hk' =>
      obtain rfl : op = op' := by simpa [hk, hk'] using hop
      obtain ⟨hnext, -⟩ := beside_of_operator rfl hleft.rest hk
      refine (alike_sum hr hnext).bind fun right right' hright => ?_
      have hagain := hright.rest.kind?_bind (p := comparison?) rfl rfl
      refine agree_ite (by rw [hagain]) (fun _ => agree_error fun _ => rfl) fun _ => ?_
      have hboth : cmp.Readings cmp.view
          (right.build (Numbering.binary op.spelling left.value right.value))
          (right'.build (Numbering.binary op.spelling left'.value right'.value)) :=
        Readings.build hright.rest (builds_binary hleft.value hright.value)
      exact agree_ok ⟨hboth.value, hboth.rest⟩

theorem alike_assignment (hr : readers.Alike cmp readers') :
    (assignment readers decls).Alike cmp (assignment readers' decls) := by
  intro c d h h' hcd
  refine (alike_comparison hr hcd).bind fun target target' htarget => ?_
  have htag := tag_of_view htarget.value
  refine agree_dite (htarget.rest.kind?_iff (by simp)) (fun hc _ => ?_) fun _ _ => ?_
  · refine agree_ite (by rw [isAssignable, isAssignable, htag]) (fun _ => ?_) fun _ => ?_
    · refine (alike_comparison hr (htarget.rest.advance hc (by simp))).bind
        fun value value' hvalue => ?_
      refine agree_ite (by rw [hvalue.rest.at? (by simp)]) (fun _ => ?_) fun _ => ?_
      · exact agree_error fun _ => rfl
      · refine agree_ok (Readings.build hvalue.rest (builds_node ?_))
        rw [Shape.map, Shape.map, htarget.value, hvalue.value]
    · exact agree_error fun _ => rfl
  · exact agree_ok ⟨htarget.value, htarget.rest⟩

theorem alike_logic (hr : readers.Alike cmp readers') :
    (logic readers decls).Alike cmp (logic readers' decls) :=
  alike_leftLevel rfl rfl (alike_assignment hr)

/-! ## The whole grammar -/

theorem error_of_bind {ε α β : Type} {x : Except ε α} {f : α → Except ε β}
    (h : ∃ e, x = .error e) : ∃ e, (x >>= f) = .error e := by
  obtain ⟨e, rfl⟩ := h
  exact ⟨e, rfl⟩

/-- There is no expression at the end of a text. -/
theorem logic_ended {h : c.size ≤ n} (hend : c.kind? = some .eof) :
    ∃ e, logic readers decls c h = .error e := by
  have hsigned : ∃ e, signed readers decls c h = .error e := by
    rw [signed]
    split
    · exact error_of_bind ⟨_, primary_other hend rfl⟩
    · next op hk => simp [hend, prefixOperator?] at hk
  -- Every level starts with an operand of the level below.
  have hsum : ∃ e, sum readers decls c h = .error e := error_of_bind (error_of_bind hsigned)
  exact error_of_bind (error_of_bind (error_of_bind hsum))

end Readers

theorem alike_readersBelow (n n' : Nat) : (readersBelow n).Alike cmp (readersBelow n') := by
  induction n generalizing n' with
  | zero => exact ⟨fun {_ _ _ h} => absurd h (Nat.not_lt_zero _),
      fun {_ _ _ h} => absurd h (Nat.not_lt_zero _), fun {_ _ h} => absurd h (Nat.not_lt_zero _)⟩
  | succ n ih =>
    cases n' with
    | zero => 
      exact ⟨fun {_ _ _ _ h'} => absurd h' (Nat.not_lt_zero _),
        fun {_ _ _ _ h'} => absurd h' (Nat.not_lt_zero _), logic_ended⟩
    | succ n' => exact ⟨alike_logic (ih n'), alike_sum (ih n'), logic_ended⟩

/-- Two readings of an expression go alike. -/
theorem alike_expr {decls : Bool} (hcd : cmp.Beside c d) :
    cmp.Alike cmp.view (expr decls c) (expr decls d) :=
  alike_logic (alike_readersBelow _ _) hcd

/-! ## Scripts -/

theorem readings_verbatim (hcd : cmp.Beside c d) :
    cmp.Readings (fun text => text) c.verbatim d.verbatim := by
  unfold Cursor.verbatim
  split
  · next text hk =>
    have hk' := (hcd.kind?_iff (by simp)).1 hk
    split
    · next text' hk'' =>
      obtain rfl : text = text' := by simpa [hk'] using hk''
      exact ⟨rfl, hcd.advance hk (by simp)⟩
    · next hother => exact absurd hk' (hother text)
  · next hother =>
    split
    · next text' hk' => exact absurd ((hcd.kind?_iff (by simp)).2 hk') (hother text')
    · exact ⟨rfl, hcd⟩

/-- What is kept of the hint and the text behind an arrow. -/
abbrev viewNote (cmp : Comparison) (note : Option Node × String) : Option Node × String :=
  (note.1.map cmp.view, note.2)

theorem alike_annotation (hcd : cmp.Beside c d) :
    cmp.Alike (viewNote cmp) ( annotation c) ( annotation d) := by
  refine agree_dite (hcd.kind?_iff (by simp)) (fun hc _ => ?_) fun _ _ => ?_
  · refine (alike_expr (hcd.advance hc (by simp))).bind fun hint hint' hhint => ?_
    refine (alike_symbol hhint.rest (by simp)).bind fun close close' hclose => ?_
    have htext := readings_verbatim hclose.rest
    have hvalue : close.rest.verbatim.value = close'.rest.verbatim.value := htext.value
    have hnote : (some (cmp.view hint.value), close.rest.verbatim.value) =
        (some (cmp.view hint'.value), close'.rest.verbatim.value) := by
      rw [hhint.value, hvalue]
    exact agree_ok ⟨hnote, htext.rest⟩
  · exact agree_ok ⟨rfl, hcd⟩

/-- What is kept of a proof chain. -/
def viewChain (cmp : Comparison) (chain : Chain) :
    List Node × List (Option Node) × List String :=
  (chain.terms.map cmp.view, chain.hints.map (Option.map cmp.view), chain.verbatims)

theorem alike_arrows {chain chain' : Chain} (hchain : viewChain cmp chain = viewChain cmp chain')
    (hcd : cmp.Beside c d) : cmp.Alike (viewChain cmp) (arrows chain c) (arrows chain' d) := by
  induction c using Cursor.induct generalizing chain chain' d with
  | shorter c ih =>
    rw [arrows, arrows]
    dsimp only
    refine agree_dite (hcd.kind?_iff (by simp)) (fun hc _ => ?_) fun _ _ => ?_
    · have hl := Cursor.size_advance_lt hc
      refine ( alike_annotation (hcd.advance hc (by simp))).elim (fun note note' hnote => ?_)
        (fun _ _ => agree_error) fun _ _ => agree_of_error rfl
      dsimp only
      refine (alike_expr hnote.rest).elim (fun term term' hterm => ?_) (fun _ _ => agree_error)
        fun _ _ => agree_of_error rfl
      obtain ⟨hhint, htext⟩ := Prod.mk.inj hnote.value
      obtain ⟨hterms, hslots⟩ := Prod.mk.inj hchain
      obtain ⟨hhints, hverbatims⟩ := Prod.mk.inj hslots
      have hlt := Nat.lt_of_lt_of_le term.shorter (Nat.le_of_lt_succ note.shorter)
      dsimp only
      refine (ih _ (Nat.lt_trans hlt hl) ?_ hterm.rest).elim ?_ (fun _ _ => agree_error)
        fun _ _ => agree_of_error rfl
      · simp only [viewChain, List.map_append, List.map_singleton, hterms, hhints, hverbatims,
          hhint, htext, hterm.value]
      · exact fun _ _ hall => agree_ok ⟨hall.value, hall.rest⟩
    · exact agree_ok ⟨hchain, hcd⟩

theorem alike_chainFrom {first first' : Node} (hfirst : cmp.view first = cmp.view first')
    (hcd : cmp.Beside c d) : cmp.Alike cmp.view (chainFrom first c) (chainFrom first' d) := by
  refine (alike_arrows ?_ hcd).bind fun chain chain' hchain => ?_
  · simp only [viewChain, List.map_singleton, List.map_nil, hfirst]
  · obtain ⟨hterms, hslots⟩ := Prod.mk.inj hchain.value
    obtain ⟨hhints, hverbatims⟩ := Prod.mk.inj hslots
    refine agree_ok (Readings.build hchain.rest (builds_node ?_))
    simp only [Shape.map, List.map_append, hterms, hhints, hverbatims]

theorem alike_assertion {place place' : Span} (hcd : cmp.Beside c d) :
    cmp.Alike cmp.view (assertion place c) (assertion place' d) := by
  refine (alike_expr hcd).bind fun condition condition' hcondition => ?_
  refine agree_ok (Readings.build hcondition.rest (builds_node ?_))
  rw [Shape.map, Shape.map, hcondition.value]

theorem termCount_of_view {m m' : Node} (h : cmp.view m = cmp.view m') :
    termCount m = termCount m' := by
  have hcount : ∀ m : Node, termCount (cmp.view m) = termCount m := by
    intro m
    rw [termCount, view, Node.shape_relabelled, termCount]
    cases m.shape <;> simp [Shape.map]
  rw [← hcount, h, hcount]

theorem alike_assumption {place place' : Span} (hcd : cmp.Beside c d) :
    cmp.Alike cmp.view (assumption place c) (assumption place' d) := by
  refine (alike_expr hcd).bind fun first first' hfirst => ?_
  refine agree_ite (by rw [hfirst.rest.at? (by simp)]) (fun _ => ?_) fun _ => ?_
  · refine (alike_chainFrom hfirst.value hfirst.rest).bind fun chain chain' hchain => ?_
    have hcount := termCount_of_view hchain.value
    refine agree_ite (by rw [hcount]) (fun _ => ?_) fun _ => ?_
    · refine agree_ok (Readings.build hchain.rest (builds_node ?_))
      rw [Shape.map, Shape.map, hchain.value]
    · exact agree_error fun _ => by rw [hcount]
  · exact agree_unexpected hfirst.rest _

theorem alike_statementOrChain (hcd : cmp.Beside c d) :
    cmp.Alike cmp.view (statementOrChain c) (statementOrChain d) := by
  refine (alike_expr hcd).bind fun first first' hfirst => ?_
  refine agree_ite (by rw [hfirst.rest.at? (by simp)]) (fun _ => ?_) fun _ => ?_
  · refine (alike_chainFrom hfirst.value hfirst.rest).bind fun chain chain' hchain => ?_
    exact agree_ok ⟨hchain.value, hchain.rest⟩
  · exact agree_ok ⟨hfirst.value, hfirst.rest⟩

/-- Two readings of an item go alike. -/
theorem alike_item (hcd : cmp.Beside c d) : cmp.Alike cmp.view (item c) (item d) := by
  refine agree_dite (hcd.kind?_iff (by simp)) (fun hc _ => ?_) fun _ _ => ?_
  · refine (alike_assertion (hcd.advance hc (by simp))).bind fun all all' hall => ?_
    exact agree_ok ⟨hall.value, hall.rest⟩
  refine agree_dite (hcd.kind?_iff (by simp)) (fun hc _ => ?_) fun _ _ => ?_
  · refine (alike_assumption (hcd.advance hc (by simp))).bind fun all all' hall => ?_
    exact agree_ok ⟨hall.value, hall.rest⟩
  · exact alike_statementOrChain hcd

/-! ## The items of a script -/

/-- The items end with the text. -/
theorem items_end (h : c.skipSemicolons.kind? = some .eof) :
    items c = .ok ([], c.skipSemicolons) := by
  rw [items]
  split
  · rfl
  · rfl
  · next k hne hk =>
    exact absurd (Option.some.inj (hk.symm.trans h)) hne

/-- An item in front of the others. -/
theorem items_step {k : Kind} (h : c.skipSemicolons.kind? = some k) (hk : k ≠ .eof) :
    items c = do
      let first ← item c.skipSemicolons
      let rest ← items first.rest
      return (first.value :: rest.1, rest.2) := by
  rw [items]
  split
  · next hnone => cases hnone.symm.trans h
  · next hend => exact absurd (Option.some.inj (h.symm.trans hend)) hk
  · cases item c.skipSemicolons with
    | error e => rfl
    | ok first =>
      dsimp only [bind, Except.bind]
      cases items first.rest <;> rfl

/-- Two lists of items are not told apart, and end side by side. -/
structure Items (cmp : Comparison) (p q : List Node × Cursor) : Prop where
  /-- The items. -/
  value : p.1.map cmp.view = q.1.map cmp.view
  /-- Where they end. -/
  rest : cmp.Beside p.2 q.2

/-- The items of texts that end together go alike. -/
theorem agree_items (he : cmp.Exact) (hcd : cmp.Beside c.skipSemicolons d.skipSemicolons) :
    cmp.Agree (Items cmp) (items c) (items d) := by
  induction c using Cursor.induct generalizing d with
  | shorter c ih =>
    have hkind := hcd.kind?_of_exact he
    obtain ⟨k, hk⟩ := Option.ne_none_iff_exists'.1 hcd.kind?_ne_none.1
    by_cases hend : k = .eof
    · subst hend
      rw [items_end hk, items_end (hkind.symm.trans hk)]
      exact agree_ok ⟨rfl, hcd⟩
    rw [items_step hk hend, items_step (hkind.symm.trans hk) hend]
    refine (alike_item hcd).bind fun first first' hfirst => ?_
    have hlt := Nat.lt_of_lt_of_le first.shorter c.size_skipSemicolons_le
    refine (ih _ hlt (hfirst.rest.skipSemicolons_of_exact he)).bind fun rest rest' hall => ?_
    refine agree_ok ⟨?_, hall.rest⟩
    rw [List.map_cons, List.map_cons, hfirst.value, hall.value]

/-- The items of a text that goes on are those of the first text, and then those behind the
semicolon with which it goes on. -/
theorem items_before {p : List Node × Cursor} (hcd : cmp.Beside c d) (h : items c = .ok p) :
    ∃ js e, js.map cmp.view = p.1.map cmp.view ∧
      e.skipSemicolons.kinds = cmp.tail.dropWhile (· == .symbol .semicolon) ∧
      items d = do
        let rest ← items e
        return (js ++ rest.1, rest.2) := by
  induction c using Cursor.induct generalizing d p with
  | shorter c ih =>
    by_cases hend : c.skipSemicolons.kind? = some .eof
    · rw [items_end hend] at h
      obtain rfl := Except.ok.inj h
      exact ⟨[], d, rfl, (hcd.skipSemicolons_end hend).2, (bind_pure (items d)).symm⟩
    · have hskip := hcd.skipSemicolons_beside hend
      obtain ⟨k, hk⟩ := Option.ne_none_iff_exists'.1 hskip.kind?_ne_none.1
      have hkind : d.skipSemicolons.kind? = some k := by
        rcases hskip.kind? with heq | ⟨-, heof, -⟩
        · rw [← heq, hk]
        · exact absurd heof hend
      have hne : k ≠ .eof := fun heq => hend (heq ▸ hk)
      rw [items_step hk hne] at h
      obtain ⟨first, hfirst, h⟩ := ok_of_bind h
      obtain ⟨rest, hrest, h⟩ := ok_of_bind h
      obtain rfl := Except.ok.inj h
      obtain ⟨first', hfirst', hview⟩ := (alike_item hskip).ok _ hfirst
      have hlt := Nat.lt_of_lt_of_le first.shorter c.size_skipSemicolons_le
      obtain ⟨js, e, hjs, he, hitems⟩ := ih _ hlt hview.rest hrest
      refine ⟨first'.value :: js, e, ?_, he, ?_⟩
      · rw [List.map_cons, List.map_cons, hview.value, hjs]
      · rw [items_step hkind hne]
        refine bind_of_ok hfirst' ?_
        rw [hitems, bind_assoc]
        rfl

/-- Scripts that end together go alike. -/
theorem agree_script {ts us : List Token} (he : cmp.Exact)
    (h : cmp.Beside (Cursor.start ts) (Cursor.start us)) :
    cmp.Agree (fun n m => cmp.view n = cmp.view m) (script ts) (script us) := by
  refine (agree_items he (h.skipSemicolons_of_exact he)).bind fun all all' hall => agree_ok ?_
  exact view_mk (hall.rest.ids 0) (congrArg Shape.script hall.value)

end Grammar

end ProofScript
