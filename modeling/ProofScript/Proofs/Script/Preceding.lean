import ProofScript.Proofs.Script.Obligations

/-!
# What an obligation sees

The obligations of a script are gathered in one pass that carries the statements and the assumptions
along. What comes out is said here without the pass: the obligations of an item are determined by
the item and by the items that precede it (`ItemGives`), and those of a script are the obligations
of its items, one item after the other (`Script.Gathers`).
-/

namespace ProofScript

/-! ## Arrows -/

theorem replacementTerms?_eq_some {hint old new : Node} :
    replacementTerms? hint = some (old, new) ↔
      ∃ receiver, hint.shape = .call receiver "Rewrite" [old, new] := by
  unfold replacementTerms?
  constructor
  · intro h
    split at h
    · next receiver old' new' hs =>
      cases h
      exact ⟨receiver, hs⟩
    · cases h
  · rintro ⟨receiver, hs⟩
    simp [hs]

theorem isAdmit_iff {hint : Node} :
    isAdmit hint = true ↔ ∃ type, hint.shape = .var "Admit" type := by
  unfold isAdmit Node.varName?
  cases hint.shape <;> simp

namespace Arrow

/-- What an arrow gives after `context` under `assumptions`: a replacement when its hint is a call
of `Rewrite` with two arguments, a goal that is left unproved when its hint is the name `Admit`, and
an equivalence otherwise. -/
inductive Gives (a : Arrow) (context : Node) (assumptions : List (Node × Node)) :
    Obligation → Prop
  /-- The hint asks for a replacement. -/
  | replacement {hint receiver old new : Node} (hhint : a.hint = some hint)
      (hcall : hint.shape = .call receiver "Rewrite" [old, new]) :
      Gives a context assumptions (.replacement a.lhs a.rhs context old new assumptions)
  /-- The hint concedes the goal. -/
  | concede {hint : Node} {type : Option VarType} (hhint : a.hint = some hint)
      (hname : hint.shape = .var "Admit" type) :
      Gives a context assumptions (.concede a.lhs a.rhs context)
  /-- The hint states invariants, or there is none. -/
  | equivalence {invariants : List Invariant}
      (hcall : ∀ hint ∈ a.hint, ∀ receiver old new,
        hint.shape ≠ .call receiver "Rewrite" [old, new])
      (hname : ∀ hint ∈ a.hint, ∀ type, hint.shape ≠ .var "Admit" type)
      (hinvariants : Invariant.ofHint a.hint context a.lhs a.rhs = .ok invariants) :
      Gives a context assumptions (.equivalence a.lhs a.rhs context invariants a.verbatim)

variable {a : Arrow} {context : Node} {assumptions : List (Node × Node)} {o : Obligation}

theorem gives_of_obligation (h : a.obligation context assumptions = .ok o) :
    a.Gives context assumptions o := by
  unfold obligation at h
  split at h
  · next old new hterms =>
    obtain ⟨hint, hhint, hterms⟩ := Option.bind_eq_some_iff.1 hterms
    obtain ⟨receiver, hcall⟩ := replacementTerms?_eq_some.1 hterms
    cases h
    exact .replacement hhint hcall
  · next hterms =>
    split at h
    · next hadmit =>
      obtain ⟨hint, hhint, hadmit⟩ : ∃ hint, a.hint = some hint ∧ isAdmit hint = true := by
        cases hhint : a.hint with
        | none => simp [hhint] at hadmit
        | some hint => exact ⟨hint, rfl, by simpa [hhint] using hadmit⟩
      obtain ⟨type, hname⟩ := isAdmit_iff.1 hadmit
      cases h
      exact .concede hhint hname
    · next hadmit =>
      split at h
      · cases h
      · next invariants hinvariants =>
        cases h
        refine .equivalence (fun hint hhint receiver old new hcall => ?_)
          (fun hint hhint type hname => ?_) hinvariants
        · have hsome := replacementTerms?_eq_some.2 ⟨receiver, hcall⟩
          rw [Option.mem_def.1 hhint] at hterms
          cases hterms.symm.trans hsome
        · rw [Option.mem_def.1 hhint] at hadmit
          exact hadmit (isAdmit_iff.2 ⟨type, hname⟩)

end Arrow

/-! ## Items -/

/-- The terms that an assumption relates. -/
def Node.assumedTerms? (item : Node) : Option (Node × Node) :=
  match item.shape with
  | .assume chain =>
    match chain.shape with
    | .proof [a, b] _ _ => some (a, b)
    | _ => none
  | _ => none

namespace Script

/-- The program that the statements among some items make up. -/
def contextOf (items : List Node) : Node :=
  (items.filter fun item => !item.isSurface).foldl Node.andThen Node.nop

/-- The terms of the assumptions among some items. -/
def assumptionsOf (items : List Node) : List (Node × Node) := items.filterMap Node.assumedTerms?

/-- What an item gives after the items `before`. -/
inductive ItemGives (before : List Node) : Node → List Obligation → Prop
  /-- An assertion gives one obligation. -/
  | assertion {item condition : Node} (hitem : item.shape = .assert condition) :
      ItemGives before item [.assertion (contextOf before) condition]
  /-- A proof chain gives one for each two neighbouring terms, by the slots of the first. -/
  | chain {item : Node} {terms : List Node} {hints : List (Option Node)} {verbatims : List String}
      {os : List Obligation} (hitem : item.shape = .proof terms hints verbatims)
      (hlength : os.length + 1 = terms.length)
      (harrows : ∀ i o, os[i]? = some o → ∃ a : Arrow, terms[i]? = some a.lhs ∧
        terms[i + 1]? = some a.rhs ∧ hints[i]? = some a.hint ∧ verbatims[i]? = some a.verbatim ∧
        a.Gives (contextOf before) (assumptionsOf before) o) :
      ItemGives before item os
  /-- Any other item gives none. -/
  | other {item : Node} (hassert : item.tag ≠ .assert) (hproof : item.tag ≠ .proof) :
      ItemGives before item []

/-- Obligations are those of some items, one item after the other, each after the items that precede
it. -/
def Gathers (items : List Node) (os : List Obligation) : Prop :=
  ∃ parts : List (List Obligation), os = parts.flatten ∧ parts.length = items.length ∧
    ∀ i item part, items[i]? = some item → parts[i]? = some part →
      ItemGives (items.take i) item part

variable {done : List Node} {item : Node}

theorem contextOf_snoc : contextOf (done ++ [item]) =
    if item.isSurface then contextOf done else (contextOf done).andThen item := by
  unfold contextOf
  rw [List.filter_append, List.foldl_append]
  cases h : item.isSurface <;> simp [h]

theorem assumptionsOf_snoc :
    assumptionsOf (done ++ [item]) = assumptionsOf done ++ item.assumedTerms?.toList := by
  unfold assumptionsOf
  rw [List.filterMap_append]
  cases h : item.assumedTerms? <;> simp [h]

theorem Gathers.snoc {os new : List Obligation} (h : Gathers done os)
    (hitem : ItemGives done item new) : Gathers (done ++ [item]) (os ++ new) := by
  obtain ⟨parts, rfl, hlength, hparts⟩ := h
  refine ⟨parts ++ [new], by simp, by simp [hlength], fun i item' part hi hpart => ?_⟩
  rcases Nat.lt_or_ge i done.length with hlt | hge
  · rw [List.getElem?_append_left hlt] at hi
    rw [List.getElem?_append_left (hlength ▸ hlt)] at hpart
    rw [List.take_append_of_le_length (Nat.le_of_lt hlt)]
    exact hparts i item' part hi hpart
  · obtain ⟨hbound, -⟩ := List.getElem?_eq_some_iff.1 hi
    obtain rfl : i = done.length := by
      rw [List.length_append, List.length_singleton] at hbound
      omega
    rw [List.getElem?_concat_length] at hi
    rw [← hlength, List.getElem?_concat_length] at hpart
    obtain rfl := Option.some.inj hi
    obtain rfl := Option.some.inj hpart
    rwa [List.take_left]

/-! ## The pass -/

/-- What is gathered after the items `done` is what these items give. -/
structure Progress.After (done : List Node) (p : Progress) : Prop where
  /-- The statements are those of the items. -/
  context_eq : p.context = contextOf done
  /-- The assumptions are those of the items. -/
  assumptions_eq : p.assumptions = assumptionsOf done
  /-- The obligations are those of the items. -/
  gathers : Gathers done p.obligations

theorem Progress.after_start : Progress.start.After [] where
  context_eq := rfl
  assumptions_eq := rfl
  gathers := ⟨[], rfl, rfl, fun _ _ _ hi => by cases hi⟩

theorem Progress.After.snoc {p q : Progress} {new : List Obligation} (hp : p.After done)
    (hitem : ItemGives done item new)
    (hcontext : q.context = if item.isSurface then p.context else p.context.andThen item)
    (hassumptions : q.assumptions = p.assumptions ++ item.assumedTerms?.toList)
    (hobligations : q.obligations = p.obligations ++ new) : q.After (done ++ [item]) where
  context_eq := by rw [hcontext, contextOf_snoc, hp.context_eq]
  assumptions_eq := by rw [hassumptions, assumptionsOf_snoc, hp.assumptions_eq]
  gathers := by
    rw [hobligations]
    exact hp.gathers.snoc hitem

/-- The obligations of a chain are as the arrows of the chain give them. -/
theorem itemGives_of_chain {p : Progress} {terms : List Node} {hints : List (Option Node)}
    {verbatims : List String} {os : List Obligation} (hp : p.After done)
    (hitem : item.shape = .proof terms hints verbatims) (htwo : 2 ≤ terms.length)
    (hh : hints.length = terms.length) (hv : verbatims.length = terms.length)
    (hos : ((Arrow.ofChain terms hints verbatims).mapM fun a =>
      a.obligation p.context p.assumptions) = .ok os) : ItemGives done item os := by
  have hgives := forall₂_of_mapM hos
  have hlength : os.length = terms.length - 1 := by
    rw [← hgives.length_eq, Arrow.length_ofChain hh hv]
  refine .chain hitem (by omega) fun i o ho => ?_
  obtain ⟨hi, rfl⟩ := List.getElem?_eq_some_iff.1 ho
  have hi' : i < (Arrow.ofChain terms hints verbatims).length := hgives.length_eq ▸ hi
  obtain ⟨hlhs, hrhs, hhint, hverbatim⟩ :=
    Arrow.getElem?_ofChain (List.getElem?_eq_getElem hi')
  have hobligation := Arrow.gives_of_obligation (hgives.get hi' hi)
  rw [hp.context_eq, hp.assumptions_eq] at hobligation
  exact ⟨_, hlhs, hrhs, hhint, hverbatim, hobligation⟩

/-- What one step of the pass adds: the obligations that the item gives after the items before it,
and the item itself when it is a statement or an assumption. -/
theorem Progress.After.adds {p q : Progress} (hp : p.After done)
    (h : Script.proofStep p item = .ok q) :
    ∃ new, ItemGives done item new ∧
      q.context = (if item.isSurface then p.context else p.context.andThen item) ∧
      q.assumptions = p.assumptions ++ item.assumedTerms?.toList ∧
      q.obligations = p.obligations ++ new := by
  obtain ⟨id, span, shape⟩ := item
  cases shape with
  | proof terms hints verbatims =>
    unfold Script.proofStep at h
    simp only [Node.shape] at h
    split at h
    · cases h
    · next hslots =>
      simp only [Bool.or_eq_true, decide_eq_true_eq, bne_iff_ne, not_or, not_not, ne_eq,
        Nat.not_lt] at hslots
      obtain ⟨⟨htwo, hh⟩, hv⟩ := hslots
      obtain ⟨os, hos, h⟩ := ok_of_bind h
      cases h
      exact ⟨os, itemGives_of_chain hp rfl htwo hh hv hos, rfl,
        by simp [Node.assumedTerms?, Node.shape], rfl⟩
  | assert condition =>
    cases h
    exact ⟨_, .assertion rfl, rfl, by simp [Node.assumedTerms?, Node.shape],
      by rw [hp.context_eq]⟩
  | assume chain =>
    unfold Script.proofStep at h
    simp only [Node.shape] at h
    split at h
    · next a b hints verbatims hchain =>
      cases h
      have hassumed : (Node.mk id span (.assume chain)).assumedTerms? = some (a, b) := by
        cases chain
        cases hchain
        rfl
      exact ⟨[], .other (fun h => by cases h) (fun h => by cases h), rfl, by rw [hassumed]; rfl,
        by simp⟩
    · cases h
  | script items => cases h
  | _ =>
    cases h
    exact ⟨[], .other (fun h => by cases h) (fun h => by cases h), rfl,
      by simp [Node.assumedTerms?, Node.shape], by simp⟩

/-- One step of the pass gathers what the item gives after the items before it. -/
theorem Progress.After.proofStep {p q : Progress} (hp : p.After done)
    (h : Script.proofStep p item = .ok q) : q.After (done ++ [item]) := by
  obtain ⟨new, hitem, hcontext, hassumptions, hobligations⟩ := hp.adds h
  exact hp.snoc hitem hcontext hassumptions hobligations

/-- The obligations of a script are those of its items, one item after the other. Each sees exactly
the statements and the assumptions that precede its item. -/
theorem gathers_of_proofObligations {s : Script} {os : List Obligation}
    (h : s.proofObligations = .ok os) : Gathers s.items os := by
  obtain ⟨p, hp, h⟩ := ok_of_bind h
  cases h
  have hafter := foldlM_inv (fun done p => Progress.After done p) hp Progress.after_start
    fun done p item q hp h => hp.proofStep h
  exact hafter.gathers

/-- A chain with all three kinds of arrow between two statements and two assumptions: it sees the
first statement and the first assumption. -/
theorem gathers_of_proofObligations_chain :
    let name (n : String) := Node.var n
    let assign (n : String) (value : Int64) :=
      Node.detached (.assign (name n) (Node.int value))
    let assume (a b : String) := Node.detached (.assume
      (Node.detached (.proof [name a, name b] [none, none] ["", ""])))
    let rewrite := Node.detached (.call Node.nil "Rewrite" [name "a", name "b"])
    let chain := Node.detached (.proof [name "p", name "q", name "r", name "t"]
      [some rewrite, some (name "Admit"), some (name "true"), none] ["", "", "lemma", ""])
    let s : Script := {
      items := [assign "x" 6, assume "a" "b", chain, assume "c" "d", assign "y" 1,
        Node.detached (.assert (name "x"))]
      seed := none
      expect := none }
    let os : List Obligation := [
      .replacement (name "p") (name "q") (assign "x" 6) (name "a") (name "b")
        [(name "a", name "b")],
      .concede (name "q") (name "r") (assign "x" 6),
      .equivalence (name "r") (name "t") (assign "x" 6) [.always] "lemma",
      .assertion (Node.seq (assign "x" 6) (assign "y" 1)) (name "x")]
    s.proofObligations = .ok os ∧ Gathers s.items os := by
  intro name assign assume rewrite chain s os
  have hos : s.proofObligations = .ok os := rfl
  exact ⟨hos, gathers_of_proofObligations hos⟩

end Script

end ProofScript
