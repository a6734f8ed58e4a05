import ProofScript.Code.Emit
import ProofScript.Proofs.Analyses
import ProofScript.Proofs.Code.Building
import ProofScript.Proofs.Script.Obligations

/-!
# Emitters settle claims

What a dialect has to provide (`Dialect.Sound`), and that the emitter of a ready obligation then
settles its claim (`Emit.obligation_settles`): it succeeds, the program runs one more name and
declares it. The only failure is that of a backend without invariants over all arguments.
-/

namespace ProofScript

/-! ## Sound dialects -/

/-- The values of the placeholders in the lemma for a method. -/
def Emit.methodValues (l : LemmaNotation) (e : Emit.Equated) (verbatim method : String)
    (vars : List String) : List (String × String) :=
  [("proof", e.proof ++ "_" ++ method), ("method", method), ("prefix", e.context), ("lhs", e.lhs),
    ("rhs", e.rhs), ("cons_args", l.valueList vars), ("args", l.paramTail vars),
    ("invariant", e.invariant), ("body", verbatim)]

/-- The values of the placeholders in the use of a lemma. -/
def Emit.useValues (l : LemmaNotation) (e : Emit.Equated) (method : String) (vars : List String) :
    List (String × String) :=
  [("proof", e.proof ++ "_" ++ method), ("method", method), ("bvs", l.binders vars),
    ("cons_args", l.valueList vars), ("args", l.callArgs vars), ("invariant", e.invariant)]

/-- The values of the placeholders in the proof that uses all lemmas. -/
def Emit.proofValues (e : Emit.Equated) (uses : List String) : List (String × String) :=
  [("proof", e.proof), ("prefix", e.context), ("lhs", e.lhs), ("rhs", e.rhs),
    ("invariant", e.invariant), ("body", "\n".intercalate uses)]

/-- What a proof by lemmas needs: its snippets can be filled in, the lemma for a method is not named
like a claim, and the proof that uses the lemmas is. -/
structure LemmaNotation.Sound (d : Dialect) (l : LemmaNotation) : Prop where
  /-- The lemma for a method. -/
  methodProof : ∀ (e : Emit.Equated) (n : Nat) (verbatim method : String) (vars : List String),
    e.proof = Claim.numbered "equivalent" n →
    ∃ text, l.methodProof.substitute (Emit.methodValues l e verbatim method vars) = .ok text ∧
      Claim.isName (d.backend.heading text).name = false
  /-- The use of a lemma without arguments. -/
  useWithoutArgs : ∀ (e : Emit.Equated) (method : String) (vars : List String),
    ∃ text, l.useWithoutArgs.substitute (Emit.useValues l e method vars) = .ok text
  /-- The use of a lemma for all values of its arguments. -/
  useWithArgs : ∀ (e : Emit.Equated) (method : String) (vars : List String),
    ∃ text, l.useWithArgs.substitute (Emit.useValues l e method vars) = .ok text
  /-- The proof that uses all lemmas. -/
  equivalenceProof : ∀ (e : Emit.Equated) (n : Nat) (uses : List String),
    e.proof = Claim.numbered "equivalent" n →
    ∃ text, l.equivalenceProof.substitute (Emit.proofValues e uses) = .ok text ∧
      d.backend.heading text = Heading.closed e.proof
  /-- The conjunction of invariants. -/
  conjunction : ∀ {drawn : List String} {s t : Builder} (names : List String), Idle d drawn s t →
    Ends (l.conjunction names) (fun _ u => Idle d drawn s u) (fun _ => False) t

/-- What a dialect needs: programs have terms, the definition of a claim declares its name, and a
ready invariant is emitted under a name that is not that of a claim. -/
structure Dialect.Sound (d : Dialect) : Prop where
  /-- Programs have terms. -/
  term : ∀ {n : Node}, n.IsProgram → ∃ t, d.term n = .ok t
  /-- The definition of a claim. -/
  frame : ∀ {stem : String}, stem ∈ Claim.stems → ∀ (n : Nat) (lines : List String),
    d.backend.heading (d.frame ⟨.method, Claim.numbered stem n, [], none, lines⟩) =
      Heading.closed (Claim.numbered stem n)
  /-- Invariants. Only one backend has those over all arguments. -/
  invariant : ∀ {inv : Invariant} {s t : Builder}, inv.Ready → Idle d [] s t →
    Ends (d.invariant inv)
      (fun _ u => Idle d [] s u ∧ (inv.isUniversal = true → d.backend = .rosette))
      (fun e => e = .universal ∧ inv.isUniversal = true ∧ d.backend = .dafny) t
  /-- The notation for lemmas. -/
  lemmas : ∀ {l : LemmaNotation}, d.style = .methodLemmas l → l.Sound d

variable {d : Dialect} {stem : String} {s t : Builder} {fails : CodeFault → Prop}

/-- Closing the definition of a claim settles it. -/
theorem Opened.close (hd : d.Sound) (hstem : stem ∈ Claim.stems) (h : Opened d stem s t) :
    Ends (Building.close true) (fun _ u => Settled d stem s u) fails t := by
  obtain ⟨lines, hcurrent⟩ := h.current
  refine (ends_close hcurrent fun _ => rfl).2 ⟨rfl, ?_, h.since.counts, ?_⟩
  · rw [if_pos rfl, h.since.run]
  · have hframe := hd.frame hstem (s.names.count stem) lines
    have hname := Claim.isName_numbered hstem (s.names.count stem)
    rw [← h.since.headings]
    simp only [Dialect.claimHeadings, List.map_append, List.filter_append, List.map_singleton,
      Dialect.itemText, Builder.nextName, hframe]
    simp [Heading.closed, hname]

/-- A term can be rendered at any time. -/
theorem ends_term {n : Node} {post : Builder → Prop} (hd : d.Sound) (hn : n.IsProgram)
    (ht : post t) : Ends (Building.ofTerm (d.term n)) (fun _ u => post u) fails t := by
  obtain ⟨text, htext⟩ := hd.term hn
  exact (ends_ofTerm htext).2 ht

/-- The program runs a text under the name that has been drawn for a claim. -/
theorem Idle.settle {text : String} (hstem : stem ∈ Claim.stems) (h : Idle d [stem] s t)
    (htext : d.backend.heading text = Heading.closed (s.nextName stem)) :
    Ends (Building.global text (some (s.nextName stem))) (fun _ u => Settled d stem s u) fails
      t := by
  refine ends_global.2 ⟨h.closed, ?_, h.since.counts, ?_⟩
  · rw [h.since.run, Option.toList_some]
  · have hname : Claim.isName (s.nextName stem) = true :=
      Claim.isName_numbered hstem (s.names.count stem)
    rw [← h.since.headings]
    simp only [Dialect.claimHeadings, List.map_append, List.filter_append, List.map_singleton,
      Dialect.itemText, htext]
    simp [Heading.closed, hname]

/-! ## Claims with a definition of their own -/

namespace Emit

theorem assertion_settles {program condition : Node} (hd : d.Sound) (hp : program.IsProgram)
    (hc : condition.IsProgram) (hs : s.current = none) :
    Ends (assertion d program condition) (fun _ u => Settled d "assertion" s u) fails s := by
  have h : Idle d [] s s := Idle.start hs
  refine (h.fresh (by decide)).bind fun prog _ h => ?_
  refine (h.fresh (by decide)).bind fun ctx _ h => ?_
  refine (h.fresh (by decide)).bind fun ret _ h => ?_
  refine (h.fresh (by decide)).bind fun cond _ h => ?_
  refine (h.openDef (by decide)).bind fun _ _ h => ?_
  refine (ends_term hd hp h).bind fun _ _ h => ?_
  refine (ends_term hd hc h).bind fun _ _ h => ?_
  refine h.emit.bind fun _ _ h => ?_
  exact (h.close hd (by decide)).bind fun _ _ h => ends_pure.2 h

theorem concede_settles {lhs rhs context : Node} (hd : d.Sound) (hl : lhs.IsProgram)
    (hr : rhs.IsProgram) (hc : context.IsProgram) (hs : s.current = none) :
    Ends (concede d lhs rhs context) (fun _ u => Settled d "admitted" s u) fails s := by
  have h : Idle d [] s s := Idle.start hs
  refine (h.openDef (by decide)).bind fun _ _ h => ?_
  refine (h.fresh (by decide)).bind fun l _ h => ?_
  refine (h.fresh (by decide)).bind fun r _ h => ?_
  refine (ends_term hd (hc.seq hl) h).bind fun _ _ h => ?_
  refine (ends_term hd (hc.seq hr) h).bind fun _ _ h => ?_
  refine h.emit.bind fun _ _ h => ?_
  refine h.emit.bind fun _ _ h => ?_
  exact (h.close hd (by decide)).bind fun _ _ h => ends_pure.2 h

/-- The terms of pairs of programs can be rendered at any time. -/
theorem ends_pairTerms {pairs : List (Node × Node)} {post : Builder → Prop} (hd : d.Sound)
    (hpairs : ∀ pair ∈ pairs, pair.1.IsProgram ∧ pair.2.IsProgram) (ht : post t) :
    Ends (pairTerms d pairs) (fun _ u => post u) fails t := by
  refine ends_mapM (fun _ _ u => post u) (fun _ _ pair u hpair hu => ?_) ht
  obtain ⟨hleft, hright⟩ := hpairs pair hpair
  refine (ends_term hd hleft hu).bind fun _ _ hu => ?_
  exact (ends_term hd hright hu).bind fun _ _ hu => ends_pure.2 hu

theorem replacement_settles {lhs rhs context old new : Node} {assumptions : List (Node × Node)}
    (hd : d.Sound) (hl : lhs.IsProgram) (hr : rhs.IsProgram) (hc : context.IsProgram)
    (ho : old.IsProgram) (hn : new.IsProgram)
    (ha : ∀ pair ∈ assumptions, pair.1.IsProgram ∧ pair.2.IsProgram) (hs : s.current = none) :
    Ends (replacement d lhs rhs context old new assumptions)
      (fun _ u => Settled d "validrewrite" s u) fails s := by
  have swapped : ∀ pair ∈ assumptions.map Prod.swap, pair.1.IsProgram ∧ pair.2.IsProgram := by
    intro pair hpair
    obtain ⟨original, horiginal, rfl⟩ := List.mem_map.1 hpair
    exact (ha original horiginal).symm
  have h : Idle d [] s s := Idle.start hs
  refine (h.openDef (by decide)).bind fun _ _ h => ?_
  refine (h.fresh (by decide)).bind fun ctx _ h => ?_
  refine (h.fresh (by decide)).bind fun l _ h => ?_
  refine (h.fresh (by decide)).bind fun r _ h => ?_
  refine (h.fresh (by decide)).bind fun assumed _ h => ?_
  refine (ends_pairTerms hd ha h).bind fun forward _ h => ?_
  refine (ends_pairTerms hd swapped h).bind fun backward _ h => ?_
  refine (ends_term hd hc h).bind fun _ _ h => ?_
  refine (ends_term hd hl h).bind fun _ _ h => ?_
  refine (ends_term hd hr h).bind fun _ _ h => ?_
  refine (ends_term hd ho h).bind fun _ _ h => ?_
  refine (ends_term hd hn h).bind fun _ _ h => ?_
  refine h.emit.bind fun _ _ h => ?_
  exact (h.close hd (by decide)).bind fun _ _ h => ends_pure.2 h

/-- Evaluating terms one after the other stays inside the open definition. -/
theorem evaluations_open {terms : List Node} (hd : d.Sound) (hterms : ∀ k ∈ terms, k.IsProgram)
    (ctx : String) (last : Option String) (h : Opened d stem s t) :
    Ends (evaluations d ctx last terms) (fun _ u => Opened d stem s u) fails t := by
  induction terms generalizing ctx last t with
  | nil => exact ends_pure.2 h
  | cons term terms ih =>
    obtain ⟨hterm, hrest⟩ := List.forall_mem_cons.1 hterms
    refine (h.fresh (by decide)).bind fun expr _ h => ?_
    refine (h.fresh (by decide)).bind fun ret _ h => ?_
    refine (h.fresh (by decide)).bind fun next _ h => ?_
    refine (ends_term hd hterm h).bind fun _ _ h => ?_
    refine h.emit.bind fun _ _ h => ?_
    refine h.emit.bind fun _ _ h => ?_
    exact ih hrest next (some ret) h

theorem run_settles {terms : List Node} (hd : d.Sound) (hterms : ∀ k ∈ terms, k.IsProgram)
    (seed : Option Seed) (expect : Option Expectation) (hs : s.current = none) :
    Ends (run d terms seed expect) (fun _ u => Settled d "run" s u) fails s := by
  have h : Idle d [] s s := Idle.start hs
  refine (h.openDef (by decide)).bind fun _ _ h => ?_
  refine (h.fresh (by decide)).bind fun ctx _ h => ?_
  refine h.emit.bind fun _ _ h => ?_
  refine (evaluations_open hd hterms ctx none h).bind fun result _ h => ?_
  refine h.emit.bind fun _ _ h => ?_
  exact (h.close hd (by decide)).bind fun _ _ h => ends_pure.2 h

/-! ## Equivalences -/

theorem wholeObject_settles {lhs rhs context : Node} (hd : d.Sound) (hl : lhs.IsProgram)
    (hr : rhs.IsProgram) (hc : context.IsProgram)
    (check : String → String → String → List String → List String) (verbatim : String)
    (invariants : List String) (h : Idle d [] s t) :
    Ends (wholeObject d check lhs rhs context verbatim invariants)
      (fun _ u => Settled d "equivalent" s u) fails t := by
  refine (h.openDef (by decide)).bind fun _ _ h => ?_
  refine (h.fresh (by decide)).bind fun ctx _ h => ?_
  refine (h.fresh (by decide)).bind fun l _ h => ?_
  refine (h.fresh (by decide)).bind fun r _ h => ?_
  refine (ends_term hd hc h).bind fun _ _ h => ?_
  refine (ends_term hd hl h).bind fun _ _ h => ?_
  refine (ends_term hd hr h).bind fun _ _ h => ?_
  refine h.emit.bind fun _ _ h => ?_
  refine h.emit.bind fun _ _ h => ?_
  refine h.emit.bind fun _ _ h => ?_
  exact (h.close hd (by decide)).bind fun _ _ h => ends_pure.2 h

variable {l : LemmaNotation} {drawn : List String}

/-- The lemma for a method is not named like a claim. -/
theorem methodLemma_idle {e : Equated} {n : Nat} (hl : l.Sound d)
    (he : e.proof = Claim.numbered "equivalent" n) (verbatim method : String) (arity : Nat)
    (h : Idle d drawn s t) :
    Ends (methodLemma l e verbatim method arity) (fun _ u => Idle d drawn s u) fails t := by
  have hvars : Ends ((List.replicate arity "v").mapM Building.fresh)
      (fun _ u => Idle d drawn s u) fails t := by
    refine ends_mapM (fun _ _ u => Idle d drawn s u) (fun _ _ aux u haux hu => ?_) h
    obtain rfl := List.eq_of_mem_replicate haux
    exact hu.fresh (by decide)
  refine hvars.bind fun vars _ h => ?_
  obtain ⟨text, htext, hname⟩ := hl.methodProof e n verbatim method vars he
  refine ends_bind.2 ((ends_ofTemplate htext).2 ?_)
  refine (h.global hname).bind fun _ _ h => ?_
  by_cases hempty : vars.isEmpty = true
  · obtain ⟨use, huse⟩ := hl.useWithoutArgs e method vars
    rw [if_pos hempty]
    exact (ends_ofTemplate huse).2 h
  · obtain ⟨use, huse⟩ := hl.useWithArgs e method vars
    rw [if_neg hempty]
    exact (ends_ofTemplate huse).2 h

/-- The lemmas for methods and the proof that uses them settle the claim. -/
theorem lemmas_settle {e : Equated} (hl : l.Sound d) (he : e.proof = s.nextName "equivalent")
    (verbatim : String) (shared : List (String × Nat)) (h : Idle d ["equivalent"] s t) :
    Ends (do
        let uses ← shared.mapM fun (method, arity) => methodLemma l e verbatim method arity
        let text ← Building.ofTemplate (l.equivalenceProof.substitute (proofValues e uses))
        Building.global text (some e.proof))
      (fun _ u => Settled d "equivalent" s u) fails t := by
  have huses : Ends (shared.mapM fun method => methodLemma l e verbatim method.1 method.2)
      (fun _ u => Idle d ["equivalent"] s u) fails t :=
    ends_mapM (fun _ _ u => Idle d ["equivalent"] s u)
      (fun _ _ method _ _ h => methodLemma_idle hl he verbatim method.1 method.2 h) h
  refine huses.bind fun uses _ h => ?_
  obtain ⟨text, htext, hheading⟩ := hl.equivalenceProof e _ uses he
  refine ends_bind.2 ((ends_ofTemplate htext).2 ?_)
  rw [he] at hheading ⊢
  exact h.settle (by decide) hheading

theorem methodLemmas_settles {lhs rhs context : Node} (hd : d.Sound) (hl : l.Sound d)
    (hleft : lhs.IsProgram) (hright : rhs.IsProgram) (hc : context.IsProgram) (verbatim : String)
    (invariants : List String) (h : Idle d [] s t) :
    Ends (methodLemmas d l lhs rhs context verbatim invariants)
      (fun _ u => Settled d "equivalent" s u) fails t := by
  have hroots : ∀ root ∈ [context, lhs, rhs], root.Fits := by
    simpa using ⟨hc.fits, hleft.fits, hright.fits⟩
  obtain ⟨objects, hobjects⟩ := Objects.ofNodes_ok hroots
  refine ends_bind.2 ((ends_ofTree hobjects).2 ?_)
  refine (h.freshClaim (by decide)).bind ?_
  rintro proof _ ⟨hproof, h⟩
  refine (ends_term hd hc h).bind fun contextText _ h => ?_
  refine (ends_term hd hleft h).bind fun lhsText _ h => ?_
  refine (ends_term hd hright h).bind fun rhsText u h => ?_
  dsimp only
  split
  · next name => exact lemmas_settle hl hproof verbatim _ h
  · have hinvariant : Ends (l.conjunction invariants) (fun _ u => Idle d ["equivalent"] s u)
        fails u := (hl.conjunction invariants h).imp (fun _ _ h => h) fun _ h => h.elim
    refine hinvariant.bind fun invariant _ h => ?_
    exact lemmas_settle hl hproof verbatim _ h

/-- Emitting invariants settles nothing. Only one backend has those over all arguments. -/
theorem invariants_idle {invariants : List Invariant} (hd : d.Sound)
    (hinvs : ∀ inv ∈ invariants, inv.Ready) (h : Idle d [] s t) :
    Ends (invariants.mapM d.invariant)
      (fun _ u => Idle d [] s u ∧
        (invariants.any Invariant.isUniversal = true → d.backend = .rosette))
      (fun e => e = .universal ∧ invariants.any Invariant.isUniversal = true ∧
        d.backend = .dafny) t := by
  refine ends_mapM (fun done _ u => Idle d [] s u ∧
    (done.any Invariant.isUniversal = true → d.backend = .rosette)) ?_ ⟨h, fun h => nomatch h⟩
  rintro done names inv u hinv ⟨hu, hdone⟩
  refine (hd.invariant (hinvs inv hinv) hu).imp ?_ ?_
  · rintro name u' ⟨hu', huniversal⟩
    refine ⟨hu', fun hany => ?_⟩
    rw [List.any_append, Bool.or_eq_true] at hany
    rcases hany with hany | hany
    · exact hdone hany
    · exact huniversal (by simpa using hany)
  · rintro e ⟨he, huniversal, hbackend⟩
    exact ⟨he, List.any_eq_true.2 ⟨inv, hinv, huniversal⟩, hbackend⟩

theorem equivalence_settles {lhs rhs context : Node} {invariants : List Invariant} (hd : d.Sound)
    (hl : lhs.IsProgram) (hr : rhs.IsProgram) (hc : context.IsProgram)
    (hinvs : ∀ inv ∈ invariants, inv.Ready) (verbatim : String) (hs : s.current = none) :
    Ends (equivalence d lhs rhs context invariants verbatim)
      (fun _ u => Settled d "equivalent" s u ∧
        (invariants.any Invariant.isUniversal = true → d.backend = .rosette))
      (fun e => e = .universal ∧ invariants.any Invariant.isUniversal = true ∧
        d.backend = .dafny) s := by
  -- The invariant that stands in for none is ready, and is not over all arguments.
  obtain ⟨used, hused, hready, hsame⟩ : ∃ used,
      (if invariants.isEmpty then [Invariant.always] else invariants) = used ∧
      (∀ inv ∈ used, inv.Ready) ∧
      used.any Invariant.isUniversal = invariants.any Invariant.isUniversal := by
    cases invariants with
    | nil => exact ⟨[.always], rfl, by simp [Invariant.Ready], rfl⟩
    | cons inv rest => exact ⟨inv :: rest, rfl, hinvs, rfl⟩
  simp only [equivalence, hused, ← hsame]
  refine (invariants_idle hd hready (Idle.start hs)).bind ?_
  rintro names u ⟨hu, huniversal⟩
  cases hstyle : d.style with
  | methodLemmas l =>
    have hl' := hd.lemmas hstyle
    exact (methodLemmas_settles hd hl' hl hr hc verbatim names hu).mono fun _ _ h => ⟨h, huniversal⟩
  | wholeObject check =>
    exact (wholeObject_settles hd hl hr hc check verbatim names hu).mono
      fun _ _ h => ⟨h, huniversal⟩

/-! ## Obligations -/

/-- The emitter of a ready obligation settles its claim. -/
theorem obligation_settles {o : Obligation} (hd : d.Sound) (ho : o.Ready)
    (hs : s.current = none) :
    Ends (obligation d o)
      (fun _ u => Settled d o.claim.stem s u ∧ (o.claim.universal = true → d.backend = .rosette))
      (fun e => e = .universal ∧ o.claim.universal = true ∧ d.backend = .dafny) s := by
  have plain : ∀ {stem : String} {universal : Bool} {u : Builder}, universal = false →
      Settled d stem s u → Settled d stem s u ∧ (universal = true → d.backend = .rosette) := by
    rintro stem _ u rfl h
    exact ⟨h, fun h => nomatch h⟩
  cases o with
  | equivalence lhs rhs context invariants verbatim =>
    obtain ⟨hl, hr, hc, hinvs⟩ := ho
    exact equivalence_settles hd hl hr hc hinvs verbatim hs
  | assertion program condition =>
    obtain ⟨hp, hc⟩ := ho
    exact (assertion_settles hd hp hc hs).mono fun _ _ => plain rfl
  | concede lhs rhs context =>
    obtain ⟨hl, hr, hc⟩ := ho
    exact (concede_settles hd hl hr hc hs).mono fun _ _ => plain rfl
  | replacement lhs rhs context old new assumptions =>
    obtain ⟨hl, hr, hc, ho, hn, ha⟩ := ho
    exact (replacement_settles hd hl hr hc ho hn ha hs).mono fun _ _ => plain rfl
  | run terms seed expect =>
    exact (run_settles hd ho seed expect hs).mono fun _ _ => plain rfl

end Emit

end ProofScript
