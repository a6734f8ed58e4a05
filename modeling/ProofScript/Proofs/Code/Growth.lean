import ProofScript.Code.Emit
import ProofScript.Proofs.Code.Hygiene

/-!
# Programs only grow

What has been finished of a program stays as it is: every step of an emitter, whether it succeeds or
fails, adds parts behind those that are there (`Emit.obligation_grows`). So a part that one step is
known to add (`Adds`) is there at the end (`Emit.prefix_after`).
-/

namespace ProofScript

/-- The action keeps the parts that are finished, and may add others behind them. -/
def Grows {α : Type} (m : Building α) : Prop := ∀ before, Keeps (fun b => before <+: b.items) m

section Steps

variable {α β : Type} {m : Building α} {f : α → Building β}

theorem Grows.bind (hm : Grows m) (hf : ∀ a, Grows (f a)) : Grows (m >>= f) :=
  fun before => Keeps.bind (hm before) fun a => hf a before

theorem grows_pure (a : α) : Grows (pure a : Building α) := fun _ => keeps_pure

theorem grows_mapM {γ : Type} {g : γ → Building α} {xs : List γ} (h : ∀ x ∈ xs, Grows (g x)) :
    Grows (xs.mapM g) :=
  fun before => keeps_mapM fun x hx => h x hx before

theorem grows_ofTerm (r : Except CodeFault α) : Grows (Building.ofTerm r) := fun _ => keeps_liftM

theorem grows_ofTree (r : Except TreeError α) : Grows (Building.ofTree r) := fun _ => keeps_liftM

theorem grows_ofTemplate (r : Except TemplateFault α) : Grows (Building.ofTemplate r) :=
  fun _ => keeps_liftM

theorem grows_fresh (stem : String) : Grows (Building.fresh stem) := fun _ _ hb => hb

theorem grows_openDef (kind : DefKind) (stem : String) (params : List Param)
    (returns : Option String) : Grows (Building.openDef kind stem params returns) := by
  refine fun before => keeps_get.bind fun b => ?_
  split
  · exact keeps_throw
  · exact fun _ hb => hb

theorem grows_emit (lines : List String) : Grows (Building.emit lines) := by
  refine fun before => keeps_get.bind fun b => ?_
  split
  · exact keeps_throw
  · exact fun _ hb => hb

/-- A definition that is closed becomes the last part, or it is dropped. -/
theorem grows_close (run : Bool) : Grows (Building.close run) := by
  refine fun before => keeps_get.bind fun b => ?_
  split
  · exact keeps_throw
  · rename_i d hd
    have hadd : ∀ _ : PUnit, Keeps (fun b : Builder => before <+: b.items) (do
        modify fun b => { b with
          items := b.items ++ [.definition d]
          run := if run then b.run ++ [d.name] else b.run }
        return d.name : Building String) :=
      fun _ _ hb => hb.trans (List.prefix_append _ _)
    refine Keeps.bind (fun _ hb => hb) fun _ => ?_
    by_cases hrun : (run && !d.params.isEmpty) = true
    · rw [if_pos hrun]
      exact keeps_throw.bind hadd
    · rw [if_neg hrun]
      exact hadd ⟨⟩

theorem grows_global (text : String) (run : Option String) : Grows (Building.global text run) :=
  fun _ _ hb => hb.trans (List.prefix_append _ _)

end Steps

/-- When the action succeeds, a finished part has the property. -/
def Adds {α : Type} (p : Item → Prop) (m : Building α) : Prop :=
  ∀ s, Yields m (fun _ t => ∃ item ∈ t.items, p item) s

namespace Adds

variable {α β : Type} {p : Item → Prop} {m : Building α} {f : α → Building β}

/-- The last of two steps adds the part. -/
theorem last (hf : ∀ a, Adds p (f a)) : Adds p (m >>= f) :=
  fun _ => (ends_true m).bind fun a t _ => hf a t

/-- The first of two steps adds the part, and the other one does not take it away. -/
theorem first (hm : Adds p m) (hf : ∀ a, Grows (f a)) : Adds p (m >>= f) := by
  refine fun s => (hm s).bind ?_
  rintro a t ⟨item, hitem, hp⟩
  have hkept : Yields (f a) (fun _ u => True ∧ t.items <+: u.items) t :=
    (ends_true _).and_keeps (hf a t.items) List.prefix_rfl
  exact hkept.mono fun _ u hu => ⟨item, hu.2.subset hitem, hp⟩

theorem ofTemplate {r : Except TemplateFault α} (hf : ∀ a, r = .ok a → Adds p (f a)) :
    Adds p (Building.ofTemplate r >>= f) := by
  refine fun s => (yields_ofTemplate r).bind ?_
  rintro a t ⟨ha, rfl⟩
  exact hf a ha t

theorem ofTree {r : Except TreeError α} (hf : ∀ a, r = .ok a → Adds p (f a)) :
    Adds p (Building.ofTree r >>= f) := by
  refine fun s => (yields_ofTree r).bind ?_
  rintro a t ⟨ha, rfl⟩
  exact hf a ha t

theorem global {text : String} (hp : p (.global text)) (run : Option String) :
    Adds p (Building.global text run) := by
  intro s
  refine ends_global.2 ⟨.global text, ?_, hp⟩
  exact List.mem_append_right _ List.mem_cons_self

/-- One round of a loop adds the part. -/
theorem mapM {γ : Type} {g : γ → Building α} {xs : List γ} (hgrows : ∀ x ∈ xs, Grows (g x)) {x : γ}
    (hx : x ∈ xs) (h : Adds p (g x)) : Adds p (xs.mapM g) := by
  induction xs with
  | nil => cases hx
  | cons y ys ih =>
    rw [List.mapM_cons]
    have hrest : ∀ z ∈ ys, Grows (g z) := fun z hz => hgrows z (List.mem_cons_of_mem _ hz)
    rcases List.mem_cons.1 hx with rfl | hx
    · exact h.first fun _ => (grows_mapM hrest).bind fun _ => grows_pure _
    · exact last fun _ => (ih hrest hx).first fun _ => grows_pure _

end Adds

/-! ## Emitters -/

namespace Emit

variable {d : Dialect}

theorem assertion_grows (program condition : Node) : Grows (assertion d program condition) := by
  refine (grows_fresh _).bind fun _ => (grows_fresh _).bind fun _ => (grows_fresh _).bind fun _ =>
    (grows_fresh _).bind fun _ => (grows_openDef _ _ _ _).bind fun _ =>
    (grows_ofTerm _).bind fun _ => (grows_ofTerm _).bind fun _ => ?_
  exact (grows_emit _).bind fun _ => (grows_close _).bind fun _ => grows_pure _

theorem concede_grows (lhs rhs context : Node) : Grows (concede d lhs rhs context) := by
  refine (grows_openDef _ _ _ _).bind fun _ => (grows_fresh _).bind fun _ =>
    (grows_fresh _).bind fun _ => (grows_ofTerm _).bind fun _ => (grows_ofTerm _).bind fun _ => ?_
  exact (grows_emit _).bind fun _ => (grows_emit _).bind fun _ => (grows_close _).bind fun _ =>
    grows_pure _

theorem pairTerms_grows (pairs : List (Node × Node)) : Grows (pairTerms d pairs) :=
  grows_mapM fun _ _ => (grows_ofTerm _).bind fun _ => (grows_ofTerm _).bind fun _ => grows_pure _

theorem replacement_grows (lhs rhs context old new : Node) (assumptions : List (Node × Node)) :
    Grows (replacement d lhs rhs context old new assumptions) := by
  refine (grows_openDef _ _ _ _).bind fun _ => (grows_fresh _).bind fun _ =>
    (grows_fresh _).bind fun _ => (grows_fresh _).bind fun _ => (grows_fresh _).bind fun _ => ?_
  refine (pairTerms_grows _).bind fun _ => (pairTerms_grows _).bind fun _ =>
    (grows_ofTerm _).bind fun _ => (grows_ofTerm _).bind fun _ => (grows_ofTerm _).bind fun _ =>
    (grows_ofTerm _).bind fun _ => (grows_ofTerm _).bind fun _ => ?_
  exact (grows_emit _).bind fun _ => (grows_close _).bind fun _ => grows_pure _

theorem evaluations_grows (ctx : String) (last : Option String) (terms : List Node) :
    Grows (evaluations d ctx last terms) := by
  induction terms generalizing ctx last with
  | nil => exact grows_pure _
  | cons term terms ih =>
    refine (grows_fresh _).bind fun _ => (grows_fresh _).bind fun _ => (grows_fresh _).bind fun _ =>
      (grows_ofTerm _).bind fun _ => ?_
    exact (grows_emit _).bind fun _ => (grows_emit _).bind fun _ => ih _ _

theorem run_grows (terms : List Node) (seed : Option Seed) (expect : Option Expectation) :
    Grows (run d terms seed expect) := by
  refine (grows_openDef _ _ _ _).bind fun _ => (grows_fresh _).bind fun _ =>
    (grows_emit _).bind fun _ => (evaluations_grows _ _ _).bind fun _ => ?_
  exact (grows_emit _).bind fun _ => (grows_close _).bind fun _ => grows_pure _

theorem methodLemma_grows (l : LemmaNotation) (e : Equated) (verbatim method : String)
    (arity : Nat) : Grows (methodLemma l e verbatim method arity) := by
  refine (grows_mapM fun _ _ => grows_fresh _).bind fun _ => ?_
  exact (grows_ofTemplate _).bind fun _ => (grows_global _ _).bind fun _ => grows_ofTemplate _

theorem wholeObject_grows (check : String → String → String → List String → List String)
    (lhs rhs context : Node) (verbatim : String) (invariants : List String) :
    Grows (wholeObject d check lhs rhs context verbatim invariants) := by
  refine (grows_openDef _ _ _ _).bind fun _ => (grows_fresh _).bind fun _ =>
    (grows_fresh _).bind fun _ => (grows_fresh _).bind fun _ => (grows_ofTerm _).bind fun _ =>
    (grows_ofTerm _).bind fun _ => (grows_ofTerm _).bind fun _ => ?_
  exact (grows_emit _).bind fun _ => (grows_emit _).bind fun _ => (grows_emit _).bind fun _ =>
    (grows_close _).bind fun _ => grows_pure _

end Emit

/-- What a dialect emits on its own only adds parts. -/
structure Dialect.OnlyAdds (d : Dialect) : Prop where
  /-- Invariants. -/
  invariant : ∀ inv, Grows (d.invariant inv)
  /-- The conjunction of invariants. -/
  conjunction : ∀ {l : LemmaNotation}, d.style = .methodLemmas l →
    ∀ names, Grows (l.conjunction names)

namespace Emit

variable {d : Dialect}

/-- The lemmas and the proof that uses them. -/
theorem lemmasProof_grows (l : LemmaNotation) (e : Equated) (verbatim : String)
    (shared : List (String × Nat)) (values : List String → List (String × String)) :
    Grows (do
      let uses ← shared.mapM fun (method, arity) => methodLemma l e verbatim method arity
      let text ← Building.ofTemplate (l.equivalenceProof.substitute (values uses))
      Building.global text (some e.proof)) :=
  (grows_mapM fun _ _ => methodLemma_grows _ _ _ _ _).bind fun _ =>
    (grows_ofTemplate _).bind fun _ => grows_global _ _

theorem methodLemmas_grows {l : LemmaNotation} (hl : ∀ names, Grows (l.conjunction names))
    (lhs rhs context : Node) (verbatim : String) (invariants : List String) :
    Grows (methodLemmas d l lhs rhs context verbatim invariants) := by
  refine (grows_ofTree _).bind fun _ => (grows_fresh _).bind fun _ => (grows_ofTerm _).bind fun _ =>
    (grows_ofTerm _).bind fun _ => (grows_ofTerm _).bind fun _ => ?_
  dsimp only
  split
  · exact (grows_pure _).bind fun name => lemmasProof_grows l ⟨_, _, _, _, name⟩ verbatim _ _
  · exact (hl _).bind fun name => lemmasProof_grows l ⟨_, _, _, _, name⟩ verbatim _ _

theorem equivalence_grows (hd : d.OnlyAdds) (lhs rhs context : Node) (invariants : List Invariant)
    (verbatim : String) : Grows (equivalence d lhs rhs context invariants verbatim) := by
  refine (grows_mapM fun inv _ => hd.invariant inv).bind fun names => ?_
  split
  · next l hl => exact methodLemmas_grows (hd.conjunction hl) _ _ _ _ _
  · exact wholeObject_grows _ _ _ _ _ _

/-- Nothing is taken away by an obligation. -/
theorem obligation_grows (hd : d.OnlyAdds) (o : Obligation) : Grows (obligation d o) := by
  cases o with
  | assertion => exact assertion_grows _ _
  | equivalence => exact equivalence_grows hd _ _ _ _ _
  | concede => exact concede_grows _ _ _
  | replacement => exact replacement_grows _ _ _ _ _ _
  | run => exact run_grows _ _ _

/-- The builder that is left when obligations are emitted one after the other. One that fails leaves
behind what it has built. -/
def after (d : Dialect) (b : Builder) (os : List Obligation) : Builder :=
  os.foldl (fun b o => ((obligation d o).run.run b).2) b

/-- Nothing is taken away later. -/
theorem prefix_after (hd : d.OnlyAdds) (b : Builder) (os : List Obligation) :
    b.items <+: (after d b os).items := by
  induction os generalizing b with
  | nil => exact List.prefix_rfl
  | cons o os ih => exact (obligation_grows hd o b.items b List.prefix_rfl).trans (ih _)

end Emit

end ProofScript
