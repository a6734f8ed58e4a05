import ProofScript.Proofs.Script.Preceding

/-!
# Both modes make the same assertions

The obligations of a script are gathered by one pass in proof mode and by another one in evaluation
mode. The passes stay in step (`Script.Progress.Mirrors`): after each item both hold the same
statements, and evaluation mode holds the assertions among the obligations of proof mode. So both
modes check an assertion after the same program, and the run at the end of evaluation mode is made
of the statements that a claim behind the last item would come after.
-/

namespace ProofScript

namespace Obligation

/-- Whether an obligation is an assertion. -/
def isAssertion : Obligation → Bool
  | assertion _ _ => true
  | _ => false

/-- Whether an obligation is a run. -/
def isRun : Obligation → Bool
  | run _ _ _ => true
  | _ => false

/-- The program after which an obligation is checked; a run starts from nothing. -/
def context? : Obligation → Option Node
  | assertion program _ => some program
  | equivalence _ _ context _ _ => some context
  | concede _ _ context => some context
  | replacement _ _ context _ _ _ => some context
  | run _ _ _ => none

end Obligation

variable {a : Arrow} {context : Node} {assumptions : List (Node × Node)} {o : Obligation}

/-- No arrow gives an assertion. -/
theorem Arrow.Gives.not_assertion (h : a.Gives context assumptions o) : o.isAssertion = false := by
  cases h <;> rfl

theorem Arrow.Gives.context_eq (h : a.Gives context assumptions o) : o.context? = some context := by
  cases h <;> rfl

namespace Script

variable {done before : List Node} {item : Node} {new os : List Obligation}

/-- What an item gives is checked after the statements before the item. -/
theorem ItemGives.context_eq (h : ItemGives before item new) :
    ∀ o ∈ new, o.context? = some (contextOf before) := by
  cases h with
  | assertion hitem => simp [Obligation.context?]
  | other => simp
  | chain hitem hlength harrows =>
    intro o ho
    obtain ⟨i, hi⟩ := List.mem_iff_getElem?.1 ho
    obtain ⟨a, -, -, -, -, hgives⟩ := harrows i o hi
    exact hgives.context_eq

/-! ## Evaluation mode item by item -/

theorem evalStep_assert {p : Progress} {condition : Node} (h : item.shape = .assert condition) :
    evalStep p item =
      { p with obligations := p.obligations ++ [.assertion p.context condition] } := by
  simp [evalStep, h]

theorem evalStep_surface {p : Progress} (h : item.isSurface = true) (hassert : item.tag ≠ .assert) :
    evalStep p item = p := by
  obtain ⟨id, span, shape⟩ := item
  cases shape with
  | assert => exact absurd rfl hassert
  | script | proof | assume => rfl
  | _ => cases h

theorem evalStep_statement {p : Progress} (h : item.isSurface = false) :
    evalStep p item = { p with context := p.context.andThen item } := by
  obtain ⟨id, span, shape⟩ := item
  cases shape with
  | script | proof | assert | assume => cases h
  | _ => rfl

/-! ## The two passes side by side -/

/-- Evaluation mode has come as far as proof mode: it holds the same statements, and of the
obligations the assertions. -/
structure Progress.Mirrors (q p : Progress) : Prop where
  /-- The statements are the same. -/
  context_eq : q.context = p.context
  /-- The obligations are the assertions of proof mode. -/
  obligations_eq : q.obligations = p.obligations.filter Obligation.isAssertion

/-- One item keeps the passes in step. -/
theorem Progress.Mirrors.step {p p' q : Progress} (hq : q.Mirrors p) (hp : p.After done)
    (h : proofStep p item = .ok p') : (evalStep q item).Mirrors p' := by
  obtain ⟨new, hitem, hcontext, -, hobligations⟩ := hp.adds h
  cases hitem with
  | assertion hshape =>
    have hsurface : item.isSurface = true := by
      simp [Node.isSurface, Node.tag, hshape, Shape.tag, Tag.isSurface]
    rw [evalStep_assert hshape]
    refine ⟨?_, ?_⟩
    · rw [hcontext, if_pos hsurface, hq.context_eq]
    · rw [hobligations, List.filter_append, hq.obligations_eq, hq.context_eq, ← hp.context_eq]
      rfl
  | chain hshape hlength harrows =>
    have htag : item.tag = .proof := by rw [Node.tag, hshape]; rfl
    have hsurface : item.isSurface = true := by rw [Node.isSurface, htag]; rfl
    have hnone : new.filter Obligation.isAssertion = [] := by
      refine List.filter_eq_nil_iff.2 fun o ho => ?_
      obtain ⟨i, hi⟩ := List.mem_iff_getElem?.1 ho
      obtain ⟨a, -, -, -, -, hgives⟩ := harrows i o hi
      simp [hgives.not_assertion]
    rw [evalStep_surface hsurface (by simp [htag])]
    refine ⟨?_, ?_⟩
    · rw [hcontext, if_pos hsurface, hq.context_eq]
    · rw [hobligations, List.filter_append, hnone, List.append_nil, hq.obligations_eq]
  | other hassert hproof =>
    rw [List.append_nil] at hobligations
    by_cases hsurface : item.isSurface = true
    · rw [evalStep_surface hsurface hassert]
      refine ⟨?_, by rw [hobligations, hq.obligations_eq]⟩
      rw [hcontext, if_pos hsurface, hq.context_eq]
    · rw [evalStep_statement (by simpa using hsurface)]
      refine ⟨?_, by rw [hobligations, hq.obligations_eq]⟩
      rw [hcontext, if_neg hsurface, hq.context_eq]

/-- After all items the passes are in step, and what is gathered is what the items give. -/
theorem mirrors_of_items {items : List Node} {p : Progress}
    (h : items.foldlM proofStep Progress.start = .ok p) :
    p.After items ∧ (items.foldl evalStep Progress.start).Mirrors p := by
  refine foldlM_inv (fun done p => p.After done ∧ (done.foldl evalStep Progress.start).Mirrors p) h
    ⟨Progress.after_start, rfl, rfl⟩ ?_
  rintro done p item p' ⟨hp, hq⟩ hstep
  refine ⟨hp.proofStep hstep, ?_⟩
  rw [List.foldl_append]
  exact hq.step hp hstep

/-! ## Claims behind the last item -/

/-- The obligations of a script with one more item are those of the script and those of the item. -/
theorem proofObligations_snoc {s : Script} {claim : Node} {os' : List Obligation}
    (h : s.proofObligations = .ok os)
    (h' : { s with items := s.items ++ [claim] }.proofObligations = .ok os') :
    ∃ new, os' = os ++ new ∧ ItemGives s.items claim new := by
  obtain ⟨p, hp, hos⟩ := ok_of_bind h
  obtain ⟨p', hp', hos'⟩ := ok_of_bind h'
  cases hos
  cases hos'
  rw [List.foldlM_append] at hp'
  obtain ⟨p'', hp'', hstep⟩ := ok_of_bind hp'
  obtain rfl : p = p'' := Except.ok.inj (hp.symm.trans hp'')
  rw [List.foldlM_cons] at hstep
  obtain ⟨q, hq, hlast⟩ := ok_of_bind hstep
  cases hlast
  obtain ⟨new, hitem, -, -, hobligations⟩ := (mirrors_of_items hp).1.adds hq
  exact ⟨new, hobligations, hitem⟩

/-- An assertion behind the last item is checked after all statements. -/
theorem proofObligations_assert {s : Script} {claim condition : Node}
    (h : s.proofObligations = .ok os) (hclaim : claim.shape = .assert condition) :
    { s with items := s.items ++ [claim] }.proofObligations =
      .ok (os ++ [.assertion (contextOf s.items) condition]) := by
  obtain ⟨p, hp, hos⟩ := ok_of_bind h
  cases hos
  have hcontext := (mirrors_of_items hp).1.context_eq
  have hstep : proofStep p claim = .ok
      { p with obligations := p.obligations ++ [.assertion (contextOf s.items) condition] } := by
    simp [proofStep, hclaim, hcontext]
  have hall : (s.items ++ [claim]).foldlM proofStep Progress.start = .ok
      { p with obligations := p.obligations ++ [.assertion (contextOf s.items) condition] } := by
    rw [List.foldlM_append]
    refine bind_of_ok hp ?_
    rw [List.foldlM_cons]
    exact bind_of_ok hstep rfl
  exact bind_of_ok hall rfl

/-- The obligations of evaluation mode are the assertions of proof mode and one run behind them. The
terms of the run make up the program after which proof mode checks what is claimed behind the last
item. -/
theorem modes_agree {s : Script} (h : s.proofObligations = .ok os) :
    ∃ terms, s.runObligations.dropLast = os.filter Obligation.isAssertion ∧
      s.runObligations.getLast? = some (.run terms s.seed s.expect) ∧
      s.runObligations.filter Obligation.isRun = [.run terms s.seed s.expect] ∧
      (∀ claim condition, claim.shape = .assert condition →
        { s with items := s.items ++ [claim] }.proofObligations =
          .ok (os ++ [.assertion (terms.foldl Node.andThen Node.nop) condition])) ∧
      ∀ claim os', { s with items := s.items ++ [claim] }.proofObligations = .ok os' →
        ∃ new, os' = os ++ new ∧
          ∀ o ∈ new, o.context? = some (terms.foldl Node.andThen Node.nop) := by
  have hrun : s.runObligations =
      os.filter Obligation.isAssertion ++ [.run s.statements s.seed s.expect] := by
    obtain ⟨p, hp, hos⟩ := ok_of_bind h
    cases hos
    rw [runObligations, (mirrors_of_items hp).2.obligations_eq]
  have hnone : (os.filter Obligation.isAssertion).filter Obligation.isRun = [] := by
    refine List.filter_eq_nil_iff.2 fun o ho => ?_
    obtain ⟨-, hassertion⟩ := List.mem_filter.1 ho
    cases o with
    | assertion program condition => exact Bool.false_ne_true
    | _ => cases hassertion
  refine ⟨s.statements, ?_, ?_, ?_, ?_, ?_⟩
  · rw [hrun, List.dropLast_concat]
  · rw [hrun, List.getLast?_concat]
  · rw [hrun, List.filter_append, hnone]
    rfl
  · exact fun claim condition hclaim => proofObligations_assert h hclaim
  · intro claim os' h'
    obtain ⟨new, hnew, hitem⟩ := proofObligations_snoc h h'
    exact ⟨new, hnew, hitem.context_eq⟩

/-- Statements, an assumption and a chain stand between two assertions. -/
theorem modes_agree_interleaved :
    let name (n : String) := Node.var n
    let assign (n : String) (value : Int64) :=
      Node.detached (.assign (name n) (Node.int value))
    let assert (n : String) := Node.detached (.assert (name n))
    let chain := Node.detached (.proof [name "p", name "q"] [some (name "Admit"), none] ["", ""])
    let assumption := Node.detached (.assume
      (Node.detached (.proof [name "a", name "b"] [none, none] ["", ""])))
    let s : Script := {
      items := [assign "x" 6, assert "x", assumption, assign "y" 1, chain, assert "y", name "z"]
      seed := some { name := "k", value := 5 }
      expect := none }
    let both := Node.seq (assign "x" 6) (assign "y" 1)
    let os : List Obligation := [.assertion (assign "x" 6) (name "x"),
      .concede (name "p") (name "q") both, .assertion both (name "y")]
    s.proofObligations = .ok os ∧
      s.runObligations.dropLast = os.filter Obligation.isAssertion ∧
      { s with items := s.items ++ [assert "z"] }.proofObligations =
        .ok (os ++ [.assertion (Node.seq both (name "z")) (name "z")]) := by
  intro name assign assert chain assumption s both os
  have hos : s.proofObligations = .ok os := rfl
  obtain ⟨terms, hassertions, hlast, -, hclaim, -⟩ := modes_agree hos
  obtain rfl : terms = [assign "x" 6, assign "y" 1, name "z"] := by
    have hterms : s.runObligations.getLast? =
        some (.run [assign "x" 6, assign "y" 1, name "z"] s.seed s.expect) := rfl
    rw [hterms] at hlast
    injection hlast with hlast
    injection hlast with hlast
    exact hlast.symm
  exact ⟨hos, hassertions, hclaim (assert "z") (name "z") rfl⟩

end Script

end ProofScript
