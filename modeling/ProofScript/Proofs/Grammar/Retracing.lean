import ProofScript.Proofs.Grammar.Halting
import ProofScript.Proofs.Grammar.Completeness

/-!
# The procedure does what the readers do

The routine of every construct of an expression tracks the reader of the construct, whatever the
flag is: a reader gets the flag as an argument where a routine finds it in its state. Since a reader
always returns, each of these routines ends.
-/

namespace ProofScript

namespace Cursor

variable {c : Cursor}

theorem skipSemicolons_of_kind (h : c.kind? = some (.symbol .semicolon)) :
    c.skipSemicolons = c.advance.skipSemicolons := by
  unfold kind? at h
  unfold skipSemicolons advance
  cases ht : c.tokens with
  | nil => simp [ht] at h
  | cons t ts =>
    obtain hk : t.kind = .symbol .semicolon := by simpa [ht] using h
    simp [hk]

theorem skipSemicolons_of_ne (h : c.kind? ≠ some (.symbol .semicolon)) : c.skipSemicolons = c := by
  unfold kind? at h
  unfold skipSemicolons
  cases ht : c.tokens with
  | nil => rw [List.dropWhile_nil, ← ht]
  | cons t ts =>
    have hk : t.kind ≠ .symbol .semicolon := by simpa [ht] using h
    rw [List.dropWhile_cons_of_neg (by simpa using hk), ← ht]

end Cursor

namespace Grammar.Descent

variable {tokens : List Token} {n bound : Nat} {c : Cursor} {d : Bool}

theorem steps_semicolons : Steps tokens (run .semicolons) c d () c.skipSemicolons := by
  induction hsize : c.size using Nat.strongRecOn generalizing c with
  | ind size ih =>
    refine Halts.of_body ?_
    rw [body]
    refine steps_kind?.bind ?_
    split
    · rename_i h
      rw [Cursor.skipSemicolons_of_kind h]
      exact (steps_next h).bind (ih _ (hsize ▸ Cursor.size_advance_lt h) rfl)
    · rename_i h
      rw [Cursor.skipSemicolons_of_ne h]
      exact .pure ⟨rfl, rfl⟩

/-! ## Types -/

theorem tracks_typesAfter {type : TypeReader n}
    (ht : ∀ {c} (h : c.size < n), Tracks tokens (run .type) c d (type c h))
    {items : List VarType} {h : c.size < bound} (hb : bound ≤ n) :
    Tracks tokens (run (.types items)) c d (typesAfter type items c h hb) := by
  fun_induction typesAfter type items c h hb with
  | case1 items c h hc _ e he =>
    refine Halts.of_body ?_
    rw [body]
    exact halts_if_pos hc ((steps_next hc).bind ((ht _).fails he (.error e)))
  | case2 items c h hc _ item hitem _ ih =>
    refine Halts.of_body ?_
    rw [body]
    exact halts_if_pos hc ((steps_next hc).bind ((ht _).then hitem ih))
  | case3 items c h hc =>
    refine Halts.of_body ?_
    rw [body]
    exact halts_if_neg hc tracks_pure

theorem tracks_typeStep {type : TypeReader n}
    (ht : ∀ {c} (h : c.size < n), Tracks tokens (run .type) c d (type c h))
    (h : c.size < n + 1) : Tracks tokens (run .type) c d (typeStep type c h) := by
  refine Halts.of_body ?_
  rw [body]
  unfold typeStep
  refine steps_kind?.bind ?_
  split
  · rename_i hs
    exact (steps_next hs).bind tracks_pure
  refine steps_kind?.bind ?_
  split
  · rename_i ho
    refine (steps_next ho).bind ((ht _).bind fun first _ => ?_)
    refine (tracks_typesAfter ht _).bind fun items _ => ?_
    exact (tracks_symbol .greater).bind fun close _ => tracks_pure
  · exact tracks_unexpected _

theorem tracks_typeBelow (n : Nat) {c : Cursor} (h : c.size < n) :
    Tracks tokens (run .type) c d (typeBelow n c h) := by
  induction n generalizing c with
  | zero => exact absurd h (Nat.not_lt_zero _)
  | succ n ih => exact tracks_typeStep ih h

theorem tracks_type : Tracks tokens (run .type) c d (type c) := tracks_typeBelow _ _

/-! ## Operators -/

/-- The routine of a level tracks a reader of operands. -/
abbrev Operand.Tracked (tokens : List Token) (d : Bool) (l : Level) (operand : Operand n) : Prop :=
  ∀ ⦃c : Cursor⦄ (h : c.size ≤ n), Tracks tokens (run (.level l)) c d (operand c h)

/-- One turn of the loop over the operators of a level. -/
theorem halts_operators {l : Level} {left : Node} {op : Symbol}
    {Q : Except ParseError Node → Cursor → Prop} (hk : c.kind?.bind l.operator? = some op)
    (h : Halts tokens (do
        let right ← run (.level l.operand)
        let both ← build (Numbering.binary op.spelling left right)
        run (.operators l both)) c.advance d Q) :
    Halts tokens (run (.operators l left)) c d Q := by
  obtain ⟨kind, hkind, -⟩ := Option.bind_eq_some_iff.1 hk
  refine Halts.of_body ?_
  rw [body]
  refine steps_kind?.bind ?_
  rw [hk]
  exact (steps_next hkind).bind h

theorem tracks_operatorsAfter {l : Level} {operand : Operand n}
    (ho : Operand.Tracked tokens d l.operand operand) {left : Node} {h : c.size < n} :
    Tracks tokens (run (.operators l left)) c d
      (operatorsAfter l.operator? operand left c h) := by
  fun_induction operatorsAfter l.operator? operand left c h with
  | case1 left c h hk =>
    refine Halts.of_body ?_
    rw [body]
    refine steps_kind?.bind ?_
    rw [hk]
    exact tracks_pure
  | case2 left c h op hk _ e he => exact halts_operators hk ((ho _).fails he (.error e))
  | case3 left c h op hk _ right hright both _ e he ih =>
    exact halts_operators hk ((ho _).then hright ((steps_build _).bind (ih.error he)))
  | case4 left c h op hk _ right hright both _ all hall _ ih =>
    exact halts_operators hk ((ho _).then hright ((steps_build _).bind (ih.ok hall)))

theorem tracks_leftLevel {l : Level} (hl : l.associates = true) {operand : Operand n}
    (ho : Operand.Tracked tokens d l.operand operand) :
    Operand.Tracked tokens d l (leftLevel l.operator? operand) := by
  have hbody : body tokens (.level l) =
      run (.level l.operand) >>= fun left => run (.operators l left) := by
    cases l with
    | logic | sum | product => rfl
    | assignment | comparison | signed | postfixed => contradiction
  refine fun c h => Halts.of_body ?_
  rw [hbody]
  exact (ho h).bind fun left _ => (tracks_operatorsAfter ho).relay fun all _ => tracks_pure

/-! ## Lists between brackets -/

section Lists

variable {readers : Readers n}

/-- The routine of expressions tracks a reader, where the flag is `d`. -/
abbrev Readers.ExprTracked (tokens : List Token) (d : Bool) (readers : Readers n) : Prop :=
  ∀ ⦃c : Cursor⦄ (h : c.size < n),
    Tracks tokens (run (.level .logic)) c d (readers.expr true c h)

theorem halts_closedExpr (he : Readers.ExprTracked tokens true readers) {close : Symbol}
    {h : c.size < n} :
    Halts tokens (run (.within true (.level .logic))) c d
      (Closes close Prod.mk (closedExpr readers close c h)) :=
  ((he h).closed (fun _ _ => rfl) fun _ _ => rfl).within

theorem tracks_argument (he : Readers.ExprTracked tokens d readers) {h : c.size < n} :
    Tracks tokens (run .argument) c d (argument readers c h) := by
  refine Halts.of_body ?_
  rw [body]
  unfold argument
  refine steps_atTypedFormal?.bind ?_
  split
  · refine tracks_name.bind fun name _ => ?_
    refine (tracks_symbol .colon).bind fun colon _ => ?_
    exact tracks_type.bind fun type _ => tracks_build
  · exact he h

/-- The loop over the arguments ends in front of a closing parenthesis. -/
theorem steps_arguments {args : List Node} (h : c.kind? = some (.symbol .closeParen)) :
    Steps tokens (run (.arguments args)) c d args c := by
  refine Halts.of_body ?_
  rw [body]
  exact halts_if_pos h (.pure ⟨rfl, rfl⟩)

/-- One turn of the loop over the arguments. -/
theorem halts_arguments_turn {args : List Node} {Q : Except ParseError (List Node) → Cursor → Prop}
    (hne : c.kind? ≠ some (.symbol .closeParen))
    (h : Halts tokens (do
        let arg ← run .argument
        separator tokens
        run (.arguments (args ++ [arg]))) c d Q) :
    Halts tokens (run (.arguments args)) c d Q := by
  refine Halts.of_body ?_
  rw [body]
  exact halts_if_neg hne h

theorem halts_arguments (he : Readers.ExprTracked tokens d readers) {args : List Node}
    {h : c.size < n} :
    Halts tokens (run (.arguments args)) c d
      (Closes .closeParen Prod.mk (arguments readers args c h)) := by
  fun_induction arguments readers args c h with
  | case1 args c h hc =>
    refine (steps_arguments hc).mono ?_
    rintro _ _ ⟨rfl, rfl⟩
    exact .ok hc rfl rfl
  | case2 args c h hc e he' =>
    exact halts_arguments_turn hc ((tracks_argument he).fails he' (.error e))
  | case3 args c h hc arg harg _ hp _ =>
    refine halts_arguments_turn hc ((tracks_argument he).then harg ?_)
    refine (steps_separator hp).bind ((steps_arguments hp).mono ?_)
    rintro _ _ ⟨rfl, rfl⟩
    exact .ok hp rfl rfl
  | case4 args c h hc arg harg _ hp e he' =>
    refine halts_arguments_turn hc ((tracks_argument he).then harg ?_)
    exact halts_separator hp ((tracks_symbol _).fails he' (.error e))
  | case5 args c h hc arg harg _ hp comma hcomma _ e he' ih =>
    refine halts_arguments_turn hc ((tracks_argument he).then harg ?_)
    exact halts_separator hp ((tracks_symbol _).then hcomma (ih.closes_error he'))
  | case6 args c h hc arg harg _ hp comma hcomma _ all hall ih =>
    refine halts_arguments_turn hc ((tracks_argument he).then harg ?_)
    exact halts_separator hp ((tracks_symbol _).then hcomma (ih.closes_ok hall))

/-- One turn of the loop over the statements of a block. -/
theorem halts_statements_turn {items : List Node}
    {Q : Except ParseError (List Node) → Cursor → Prop}
    (hne : c.skipSemicolons.kind? ≠ some (.symbol .closeBrace))
    (h : Halts tokens (do
        let item ← run (.level .logic)
        run (.statements (items ++ [item]))) c.skipSemicolons d Q) :
    Halts tokens (run (.statements items)) c d Q := by
  refine Halts.of_body ?_
  rw [body]
  exact steps_semicolons.bind (halts_if_neg hne h)

theorem halts_statements (he : Readers.ExprTracked tokens d readers) {items : List Node}
    {h : c.size < n} :
    Halts tokens (run (.statements items)) c d
      (Closes .closeBrace Prod.mk (statements readers items c h)) := by
  fun_induction statements readers items c h with
  | case1 items c h _ hc =>
    refine Halts.of_body ?_
    rw [body]
    exact steps_semicolons.bind (halts_if_pos hc (.pure (.ok hc rfl rfl)))
  | case2 items c h _ hc e he' => exact halts_statements_turn hc ((he _).fails he' (.error e))
  | case3 items c h _ hc item hitem _ e he' ih =>
    exact halts_statements_turn hc ((he _).then hitem (ih.closes_error he'))
  | case4 items c h _ hc item hitem _ all hall _ ih =>
    exact halts_statements_turn hc ((he _).then hitem (ih.closes_ok hall))

theorem tracks_block (he : Readers.ExprTracked tokens true readers) {h : c.size ≤ n} :
    Tracks tokens (run .block) c d (block readers c h) := by
  refine Halts.of_body ?_
  rw [body]
  refine (tracks_symbol .openBrace).bind fun brace _ => ?_
  exact (halts_statements he).within.placed fun items _ => tracks_build

/-! ## Primary expressions -/

theorem tracks_initialValue (he : Readers.ExprTracked tokens true readers) {place : Span}
    {h : c.size < n} :
    Tracks tokens (run (.initialValue place)) c d (initialValue readers c h place) := by
  refine Halts.of_body ?_
  rw [body]
  unfold initialValue
  refine steps_kind?.bind ?_
  split
  · rename_i ha
    exact (steps_next ha).bind ((he _).within.relay fun value _ => tracks_pure)
  · exact tracks_build

theorem steps_initialisers {fields : List Node} (h : c.kind? = some (.symbol .closeParen)) :
    Steps tokens (run (.initialisers fields)) c d fields c := by
  refine Halts.of_body ?_
  rw [body]
  exact halts_if_pos h (.pure ⟨rfl, rfl⟩)

/-- One turn of the loop over the field initialisers. -/
theorem halts_initialisers_turn {fields : List Node}
    {Q : Except ParseError (List Node) → Cursor → Prop}
    (hne : c.kind? ≠ some (.symbol .closeParen))
    (h : Halts tokens (do
        let (text, place) ← name tokens
        let value ← run (.initialValue place)
        let field ← build (Numbering.node (place.join value.span) (.init text value false))
        separator tokens
        run (.initialisers (fields ++ [field]))) c d Q) :
    Halts tokens (run (.initialisers fields)) c d Q := by
  refine Halts.of_body ?_
  rw [body]
  exact halts_if_neg hne h

theorem halts_initialisers (he : Readers.ExprTracked tokens true readers) {fields : List Node}
    {h : c.size < n} :
    Halts tokens (run (.initialisers fields)) c d
      (Closes .closeParen (fun fields _ => fields) (initialisers readers fields c h)) := by
  fun_induction initialisers readers fields c h with
  | case1 fields c h hc =>
    refine (steps_initialisers hc).mono ?_
    rintro _ _ ⟨rfl, rfl⟩
    exact .ok hc rfl rfl
  | case2 fields c h hc e he' =>
    exact halts_initialisers_turn hc (tracks_name.fails he' (.error e))
  | case3 fields c h hc name hname _ place e he' =>
    refine halts_initialisers_turn hc (tracks_name.then hname ?_)
    exact (tracks_initialValue he).fails he' (.error e)
  | case4 fields c h hc name hname _ place value hvalue field _ hp _ =>
    refine halts_initialisers_turn hc (tracks_name.then hname ?_)
    refine (tracks_initialValue he).then hvalue ((steps_build _).bind ?_)
    refine (steps_separator hp).bind ((steps_initialisers hp).mono ?_)
    rintro _ _ ⟨rfl, rfl⟩
    exact .ok hp rfl rfl
  | case5 fields c h hc name hname _ place value hvalue field _ hp e he' =>
    refine halts_initialisers_turn hc (tracks_name.then hname ?_)
    refine (tracks_initialValue he).then hvalue ((steps_build _).bind ?_)
    exact halts_separator hp ((tracks_symbol _).fails he' (.error e))
  | case6 fields c h hc name hname _ place value hvalue field _ hp comma hcomma _ e he' ih =>
    refine halts_initialisers_turn hc (tracks_name.then hname ?_)
    refine (tracks_initialValue he).then hvalue ((steps_build _).bind ?_)
    exact halts_separator hp ((tracks_symbol _).then hcomma (ih.closes_error he'))
  | case7 fields c h hc name hname _ place value hvalue field _ hp comma hcomma _ all hall ih =>
    refine halts_initialisers_turn hc (tracks_name.then hname ?_)
    refine (tracks_initialValue he).then hvalue ((steps_build _).bind ?_)
    exact halts_separator hp ((tracks_symbol _).then hcomma (ih.closes_ok hall))

theorem tracks_allocation (he : Readers.ExprTracked tokens true readers) {h : c.size ≤ n} :
    Tracks tokens (run .allocation) c d (allocation readers c h) := by
  refine Halts.of_body ?_
  rw [body]
  refine (tracks_keyword .new).bind fun word _ => ?_
  refine (tracks_symbol .openParen).bind fun paren _ => ?_
  refine (halts_initialisers he).closed fun fields _ _ _ hfields => ?_
  rw [← hfields]
  exact (tracks_block he).bind fun body _ => tracks_build

theorem tracks_otherwise (he : Readers.ExprTracked tokens true readers) {positive : Node}
    {h : c.size < n} :
    Tracks tokens (run (.otherwise positive)) c d (otherwise readers positive c h) := by
  refine Halts.of_body ?_
  rw [body]
  unfold otherwise
  refine steps_kind?.bind ?_
  split
  · rename_i hw
    exact (steps_next hw).bind ((tracks_block he).relay fun negative _ => tracks_pure)
  · exact tracks_build

/-- The routines of the levels that start anew between brackets track two readers. -/
structure Readers.Tracked (tokens : List Token) (readers : Readers n) : Prop where
  expr : ∀ {d : Bool} ⦃c : Cursor⦄ (h : c.size < n),
    Tracks tokens (run (.level .logic)) c d (readers.expr d c h)
  sum : ∀ {d : Bool} ⦃c : Cursor⦄ (h : c.size < n),
    Tracks tokens (run (.level .sum)) c d (readers.sum d c h)

theorem tracks_conditional (hr : Readers.Tracked tokens readers) {h : c.size ≤ n} :
    Tracks tokens (run .conditional) c d (conditional readers c h) := by
  refine Halts.of_body ?_
  rw [body]
  refine (tracks_keyword .ifWord).bind fun word _ => ?_
  refine (hr.expr _).within.bind fun condition _ => ?_
  refine (tracks_block hr.expr).bind fun positive _ => ?_
  exact (tracks_otherwise hr.expr).bind fun negative _ => tracks_build

/-- One turn of the loop over the components of a tuple. -/
theorem halts_components_turn {items : List Node}
    {Q : Except ParseError (List Node) → Cursor → Prop}
    (hm : c.kind? = some (.symbol .comma))
    (h : Halts tokens (do
        let item ← run (.level .sum)
        run (.components (items ++ [item]))) c.advance d Q) :
    Halts tokens (run (.components items)) c d Q := by
  refine Halts.of_body ?_
  rw [body]
  exact halts_if_pos hm ((steps_next hm).bind h)

theorem halts_components (hr : Readers.Tracked tokens readers) {items : List Node}
    {h : c.size < n} :
    Halts tokens (run (.components items)) c d
      (Closes .greater Prod.mk (components readers d items c h)) := by
  fun_induction components readers d items c h with
  | case1 items c h hm _ e he' => exact halts_components_turn hm ((hr.sum _).fails he' (.error e))
  | case2 items c h hm _ item hitem _ e he' ih =>
    exact halts_components_turn hm ((hr.sum _).then hitem (ih.closes_error he'))
  | case3 items c h hm _ item hitem _ all hall ih =>
    exact halts_components_turn hm ((hr.sum _).then hitem (ih.closes_ok hall))
  | case4 items c h hm =>
    refine Halts.of_body ?_
    rw [body]
    exact halts_if_neg hm (.pure (closes_symbol (fun _ => rfl) fun _ => rfl))

theorem tracks_tuple (hr : Readers.Tracked tokens readers) {h : c.size ≤ n} :
    Tracks tokens (run .tuple) c d (tuple readers d c h) := by
  refine Halts.of_body ?_
  rw [body]
  refine (tracks_symbol .less).bind fun angle _ => (hr.sum _).bind fun first _ => ?_
  exact (halts_components hr).placed fun items _ => tracks_build

theorem tracks_callOrMethod (he : Readers.ExprTracked tokens true readers) {text : String}
    {place : Span} {h : c.size < n} :
    Tracks tokens (run (.callOrMethod text place)) c d
      (callOrMethod readers d text place c h) := by
  refine Halts.of_body ?_
  rw [body]
  refine (tracks_symbol .openParen).bind fun paren _ => ?_
  refine (halts_arguments he).within.placed fun all _ => ?_
  refine halts_state fun s hs => steps_kind?.bind ?_
  subst hs
  by_cases hdecl : s.decls = true ∧ all.rest.kind? = some (.symbol .openBrace)
  · have hblock : (s.decls && all.rest.at? .openBrace) = true := by simpa [Cursor.at?] using hdecl
    rw [if_pos hdecl, if_pos hblock]
    cases all.value.1.find? fun a => a.tag != .var with
    | some bad => exact tracks_throw
    | none => exact (tracks_block he).bind fun body _ => tracks_build
  · have hblock : ¬(s.decls && all.rest.at? .openBrace) = true := by simpa [Cursor.at?] using hdecl
    rw [if_neg hdecl, if_neg hblock]
    exact tracks_build

theorem tracks_primary (hr : Readers.Tracked tokens readers) {h : c.size ≤ n} :
    Tracks tokens (run .primary) c d (primary readers d c h) := by
  refine Halts.of_body ?_
  rw [body]
  unfold primary
  split
  · rename_i value hk
    refine steps_peek.bind ?_
    rw [head?_of_kind hk]
    exact (steps_next hk).bind tracks_build
  · rename_i text hk
    refine steps_peek.bind ?_
    rw [head?_of_kind hk]
    refine (steps_next hk).bind (steps_kind?.bind ?_)
    simp only [Cursor.at?, beq_iff_eq]
    split
    · exact (tracks_callOrMethod hr.expr).relay fun call _ => tracks_pure
    · exact tracks_build
  · rename_i hk
    refine steps_peek.bind ?_
    rw [head?_of_kind hk]
    exact tracks_allocation hr.expr
  · rename_i hk
    refine steps_peek.bind ?_
    rw [head?_of_kind hk]
    exact tracks_conditional hr
  · rename_i hk
    refine steps_peek.bind ?_
    rw [head?_of_kind hk, parenthesised, Cursor.symbol_of_kind hk]
    change Tracks _ _ _ _ (closedExpr _ _ _ _ >>= _)
    exact (steps_next hk).bind ((halts_closedExpr hr.expr).placed fun inner _ => tracks_pure)
  · rename_i hk
    refine steps_peek.bind ?_
    rw [head?_of_kind hk]
    exact tracks_tuple hr
  · rename_i word hnew hif hk
    refine steps_peek.bind ?_
    rw [head?_of_kind hk]
    cases word with
    | new => exact absurd rfl hnew
    | ifWord => exact absurd rfl hif
    | elseWord | assert | assume => exact tracks_unexpected _
  · rename_i s hparen hless hk
    refine steps_peek.bind ?_
    rw [head?_of_kind hk]
    cases s <;> first | exact tracks_unexpected _ | exact absurd rfl hparen | exact absurd rfl hless
  · rename_i hk
    refine steps_peek.bind ?_
    rw [head?_of_kind hk]
    exact tracks_unexpected _
  · rename_i hk
    refine steps_peek.bind ?_
    rw [head?_of_kind hk]
    exact tracks_unexpected _
  · rename_i hk
    refine steps_peek.bind ?_
    rw [Option.map_eq_none_iff.1 hk]
    exact tracks_unexpected _

end Lists

/-! ## Levels -/

section Levels

variable {readers : Readers n}

/-- One turn of the loop over the accessors, at a dot. -/
theorem halts_accessors_dot {base : Node} {Q : Except ParseError Node → Cursor → Prop}
    (hd : c.kind? = some (.symbol .dot))
    (h : Halts tokens (do
        let (text, place) ← name tokens
        let field ← build (Numbering.field base text place)
        run (.accessors field)) c.advance d Q) :
    Halts tokens (run (.accessors base)) c d Q := by
  refine Halts.of_body ?_
  rw [body]
  exact halts_if_pos hd ((steps_next hd).bind h)

/-- One turn of the loop over the accessors, at a bracket. -/
theorem halts_accessors_bracket {base : Node} {Q : Except ParseError Node → Cursor → Prop}
    (hb : c.kind? = some (.symbol .openBracket))
    (h : Halts tokens (do
        let index ← run (.within true (.level .logic))
        let close ← symbol tokens .closeBracket
        let make ← .ofExcept (Numbering.index base index close)
        let indexed ← build make
        run (.accessors indexed)) c.advance d Q) :
    Halts tokens (run (.accessors base)) c d Q := by
  refine Halts.of_body ?_
  rw [body]
  refine halts_if_neg (by simp [hb]) ?_
  exact halts_if_pos hb ((steps_next hb).bind h)

/-- One turn of the loop over the accessors, at the arguments of a call. -/
theorem halts_accessors_paren {base : Node} {Q : Except ParseError Node → Cursor → Prop}
    (hp : c.kind? = some (.symbol .openParen) ∧ base.tag = .compound)
    (h : Halts tokens (do
        let args ← run (.within true (.arguments []))
        let close ← symbol tokens .closeParen
        let call ← .ofExcept (Numbering.memberCall base args close)
        run (.accessors call)) c.advance d Q) :
    Halts tokens (run (.accessors base)) c d Q := by
  refine Halts.of_body ?_
  rw [body]
  refine halts_if_neg (by simp [hp.1]) (halts_if_neg (by simp [hp.1]) ?_)
  exact halts_if_pos hp ((steps_next hp.1).bind h)

theorem tracks_accessors (he : Readers.ExprTracked tokens true readers) {base : Node}
    {h : c.size < n} :
    Tracks tokens (run (.accessors base)) c d (accessors readers base c h) := by
  fun_induction accessors readers base c h with
  | case1 base c h hd _ e he' => exact halts_accessors_dot hd (tracks_name.fails he' (.error e))
  | case2 base c h hd _ name hname field _ e he' ih =>
    exact halts_accessors_dot hd (tracks_name.then hname ((steps_build _).bind (ih.error he')))
  | case3 base c h hd _ name hname field _ all hall ih =>
    exact halts_accessors_dot hd (tracks_name.then hname ((steps_build _).bind (ih.ok hall)))
  | case4 base c h hd hb _ e he' =>
    exact halts_accessors_bracket hb ((halts_closedExpr he).closeFails he' (.error e))
  | case5 base c h hd hb _ index hindex e he' =>
    refine halts_accessors_bracket hb ((halts_closedExpr he).placedThen hindex ?_)
    rw [he']
    exact halts_ofExcept (.error e _)
  | case6 base c h hd hb _ index hindex make hmake indexed _ e he' ih =>
    refine halts_accessors_bracket hb ((halts_closedExpr he).placedThen hindex ?_)
    rw [hmake]
    exact (steps_ofExcept make).bind ((steps_build make).bind (ih.error he'))
  | case7 base c h hd hb _ index hindex make hmake indexed _ all hall ih =>
    refine halts_accessors_bracket hb ((halts_closedExpr he).placedThen hindex ?_)
    rw [hmake]
    exact (steps_ofExcept make).bind ((steps_build make).bind (ih.ok hall))
  | case8 base c h hd hb hp _ e he' =>
    exact halts_accessors_paren hp ((halts_arguments he).within.closeFails he' (.error e))
  | case9 base c h hd hb hp _ args hargs _ e he' =>
    refine halts_accessors_paren hp ((halts_arguments he).within.placedThen hargs ?_)
    rw [he']
    exact halts_ofExcept (.error e _)
  | case10 base c h hd hb hp _ args hargs _ call hcall e he' ih =>
    refine halts_accessors_paren hp ((halts_arguments he).within.placedThen hargs ?_)
    rw [hcall]
    exact (steps_ofExcept call).bind (ih.error he')
  | case11 base c h hd hb hp _ args hargs _ call hcall all hall ih =>
    refine halts_accessors_paren hp ((halts_arguments he).within.placedThen hargs ?_)
    rw [hcall]
    exact (steps_ofExcept call).bind (ih.ok hall)
  | case12 base c h hd hb hp =>
    refine Halts.of_body ?_
    rw [body]
    exact halts_if_neg hd (halts_if_neg hb (halts_if_neg hp tracks_pure))

theorem tracks_postfixed (hr : Readers.Tracked tokens readers) :
    Operand.Tracked tokens d .postfixed (postfixed readers d) := by
  intro c h
  refine Halts.of_body ?_
  rw [body]
  refine (tracks_primary hr).bind fun base _ => ?_
  exact (tracks_accessors hr.expr).relay fun all _ => tracks_pure

theorem tracks_comparison (hs : Operand.Tracked tokens d .sum (sum readers d)) :
    Operand.Tracked tokens d .comparison (comparison readers d) := by
  intro c h
  refine Halts.of_body ?_
  rw [body]
  unfold comparison
  refine (hs h).bind fun left _ => ?_
  split
  · rename_i hk
    refine steps_kind?.bind ?_
    rw [hk]
    exact tracks_pure
  · rename_i op hk
    obtain ⟨kind, hkind, hop⟩ := Option.bind_eq_some_iff.1 hk
    refine (hkind ▸ steps_kind?).bind ?_
    rw [Option.bind_some, hop]
    refine (steps_next hkind).bind ((hs _).bind fun right _ => ?_)
    refine (steps_build _).bind (steps_kind?.bind ?_)
    rw [Cursor.kind?_build]
    split
    · rename_i hchained
      obtain ⟨op', hop'⟩ := Option.isSome_iff_exists.1 hchained
      obtain ⟨kind', hkind', -⟩ := Option.bind_eq_some_iff.1 hop'
      exact (steps_placeOr_of_kind (c := (right.rest.build _).2) hkind' _).bind tracks_throw
    · exact tracks_pure

theorem tracks_assignment (hc : Operand.Tracked tokens d .comparison (comparison readers d)) :
    Operand.Tracked tokens d .assignment (assignment readers d) := by
  intro c h
  refine Halts.of_body ?_
  rw [body]
  unfold assignment
  refine (hc h).bind fun target _ => steps_kind?.bind ?_
  split
  · rename_i ha
    split
    · refine (steps_next ha).bind ((hc _).bind fun value _ => steps_kind?.bind ?_)
      simp only [Cursor.at?, beq_iff_eq]
      split
      · rename_i hchained
        exact (steps_placeOr_of_kind hchained _).bind tracks_throw
      · exact tracks_build
    · exact tracks_throw
  · exact tracks_pure

/-- A prefix operator and what follows it. -/
theorem halts_signed {op : Symbol} {Q : Except ParseError Node → Cursor → Prop}
    (hk : c.kind?.bind prefixOperator? = some op)
    (h : Halts tokens (do
        let arg ← run (.level .signed)
        build (Numbering.unary op c.span arg)) c.advance d Q) :
    Halts tokens (run (.level .signed)) c d Q := by
  obtain ⟨kind, hkind, -⟩ := Option.bind_eq_some_iff.1 hk
  refine Halts.of_body ?_
  rw [body]
  refine steps_kind?.bind ?_
  rw [hk]
  exact (steps_anyToken hkind).bind h

theorem tracks_signed (hp : Operand.Tracked tokens d .postfixed (postfixed readers d)) :
    Operand.Tracked tokens d .signed (signed readers d) := by
  intro c h
  fun_induction signed readers d c h with
  | case1 c h hk =>
    refine Halts.of_body ?_
    rw [body]
    refine steps_kind?.bind ?_
    rw [hk]
    exact hp h
  | case2 c h op hk _ e he ih => exact halts_signed hk (ih.fails he (.error e))
  | case3 c h op hk _ arg harg _ _ ih => exact halts_signed hk (ih.then harg tracks_build)

/-- The routine of a level tracks its reader. -/
theorem tracks_level (hr : Readers.Tracked tokens readers) (l : Level) :
    Operand.Tracked tokens d l (l.reader readers d) := by
  have hpostfixed : Operand.Tracked tokens d .postfixed (postfixed readers d) := tracks_postfixed hr
  have hsigned : Operand.Tracked tokens d .signed (signed readers d) := tracks_signed hpostfixed
  have hproduct : Operand.Tracked tokens d .product (product readers d) :=
    tracks_leftLevel rfl hsigned
  have hsum : Operand.Tracked tokens d .sum (sum readers d) := tracks_leftLevel rfl hproduct
  have hcomparison : Operand.Tracked tokens d .comparison (comparison readers d) :=
    tracks_comparison hsum
  have hassignment : Operand.Tracked tokens d .assignment (assignment readers d) :=
    tracks_assignment hcomparison
  cases l with
  | logic => exact tracks_leftLevel rfl hassignment
  | assignment => exact hassignment
  | comparison => exact hcomparison
  | sum => exact hsum
  | product => exact hproduct
  | signed => exact hsigned
  | postfixed => exact hpostfixed

end Levels

theorem tracked_readersBelow (n : Nat) : Readers.Tracked tokens (readersBelow n) := by
  induction n with
  | zero => exact ⟨fun h => absurd h (Nat.not_lt_zero _), fun h => absurd h (Nat.not_lt_zero _)⟩
  | succ n ih => exact ⟨fun _ => tracks_level ih .logic _, fun _ => tracks_level ih .sum _⟩

/-- The routine of expressions tracks the reader of expressions that gets the same flag. -/
theorem tracks_expr : Tracks tokens (run (.level .logic)) c d (expr d c) :=
  tracks_level (tracked_readersBelow c.size) .logic _

end Grammar.Descent

end ProofScript
