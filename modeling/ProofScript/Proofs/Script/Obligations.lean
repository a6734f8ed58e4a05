import ProofScript.Script.Obligation
import ProofScript.Proofs.Analyses
import ProofScript.Proofs.Node.Program
import ProofScript.Proofs.Script.Claims

/-!
# Obligations of well-formed scripts

A well-formed script has obligations (`Script.obligations_of_wellFormed`). They are ready to be
turned into a program, which means that every tree in them stands for a program, and they are its
claims: one obligation for each claim, in the same order.
-/

namespace ProofScript

/-! ## Invariants -/

namespace Invariant

/-- Every tree in an invariant stands for a program. -/
def Ready : Invariant → Prop
  | always | never => True
  | equal lhs rhs => lhs.IsProgram ∧ rhs.IsProgram
  | valid _ expr | ref _ expr | int _ expr => expr.IsProgram
  | universal args body => (∀ a ∈ args, a.IsProgram) ∧ body.IsProgram

/-- Whether an invariant speaks of all arguments. -/
def isUniversal : Invariant → Bool
  | universal _ _ => true
  | _ => false

variable {n context lhs rhs : Node}

/-- The operands of a conjunction stand for programs. -/
theorem isProgram_of_conjuncts (h : n.IsProgram) : ∀ k ∈ conjuncts n, k.IsProgram := by
  induction n using Node.induct with
  | step id span s ih =>
    intro k hk
    by_cases hand : s.IsAnd
    · obtain ⟨receiver, left, right, rfl⟩ := hand
      have hl : left ∈ (Shape.call receiver "&" [left, right]).children := by
        simp [Shape.children]
      have hr : right ∈ (Shape.call receiver "&" [left, right]).children := by
        simp [Shape.children]
      rw [Node.conjuncts_and] at hk
      rcases List.mem_append.1 hk with hk | hk
      · exact ih left hl (h.child hl) k hk
      · exact ih right hr (h.child hr) k hk
    · rw [Node.conjuncts_of_other hand] at hk
      exact List.mem_singleton.1 hk ▸ h

/-- The default invariants are ready, and none of them speaks of all arguments. -/
theorem defaults_ok (hc : context.IsProgram) (hl : lhs.IsProgram) (hr : rhs.IsProgram) :
    ∃ invs, defaults context lhs rhs = .ok invs ∧
      ∀ inv ∈ invs, inv.Ready ∧ inv.isUniversal = false := by
  have hroots : ∀ root ∈ [context, lhs, rhs], root.Fits := by
    simpa using ⟨hc.fits, hl.fits, hr.fits⟩
  obtain ⟨objects, hobjects⟩ := Objects.ofNodes_ok hroots
  refine ⟨_, bind_of_ok hobjects rfl, fun inv hinv => ?_⟩
  obtain ⟨field, -, rfl⟩ := List.mem_map.1 hinv
  exact ⟨⟨(Node.isProgram_var _).field _, (Node.isProgram_var _).field _⟩, rfl⟩

/-- An operand that states an invariant states a ready one, which speaks of all arguments when the
operand declares a method. -/
theorem ready_of_conjunct {inv : Invariant} (h : n.IsProgram) (hinv : ofConjunct? n = some inv) :
    inv.Ready ∧ inv.isUniversal = n.isInvariantMethod := by
  have below : ∀ k ∈ n.shape.children, k.IsProgram := fun k hk => h.child hk
  unfold ofConjunct? at hinv
  unfold Node.isInvariantMethod
  split at hinv
  · next hs =>
    obtain rfl := Option.some.inj hinv
    exact ⟨⟨below _ (by simp [hs, Shape.children]), below _ (by simp [hs, Shape.children])⟩,
      by rw [hs]; rfl⟩
  · next hs =>
    obtain ⟨side, -, rfl⟩ := Option.map_eq_some_iff.1 hinv
    exact ⟨below _ (by simp [hs, Shape.children]), by rw [hs]; rfl⟩
  · next hs =>
    obtain ⟨side, -, rfl⟩ := Option.map_eq_some_iff.1 hinv
    exact ⟨below _ (by simp [hs, Shape.children]), by rw [hs]; rfl⟩
  · next hs =>
    obtain ⟨side, -, rfl⟩ := Option.map_eq_some_iff.1 hinv
    exact ⟨below _ (by simp [hs, Shape.children]), by rw [hs]; rfl⟩
  · next hs =>
    obtain rfl := Option.some.inj hinv
    exact ⟨trivial, by rw [hs]; rfl⟩
  · next hs =>
    obtain rfl := Option.some.inj hinv
    exact ⟨trivial, by rw [hs]; rfl⟩
  · next args body hs =>
    obtain rfl := Option.some.inj hinv
    have hargs : ∀ a ∈ args, a ∈ n.shape.children := fun a ha => by simp [hs, Shape.children, ha]
    exact ⟨⟨fun a ha => below a (hargs a ha), below _ (by simp [hs, Shape.children])⟩,
      by rw [hs]; rfl⟩
  · contradiction

/-- An operand that declares the method of an invariant states one. -/
theorem notMethod_of_conjunct (hinv : ofConjunct? n = none) : n.isInvariantMethod = false := by
  cases hm : n.isInvariantMethod with
  | false => rfl
  | true =>
    unfold Node.isInvariantMethod at hm
    split at hm
    · next hs => simp [ofConjunct?, hs] at hinv
    · contradiction

/-- Invariants as an operand of a hint may state them. -/
def StatedBy (part : Node) (invs : List Invariant) : Prop :=
  (∀ inv ∈ invs, inv.Ready) ∧ invs.any isUniversal = part.isInvariantMethod

/-- What the operands state one by one, taken together. -/
theorem ready_of_statedBy {parts : List Node} {invs : List (List Invariant)}
    (h : List.Forall₂ StatedBy parts invs) :
    (∀ inv ∈ invs.flatten, inv.Ready) ∧
      invs.flatten.any isUniversal = parts.any Node.isInvariantMethod := by
  induction h with
  | nil => exact ⟨fun _ h => absurd h List.not_mem_nil, rfl⟩
  | cons hfirst _ ih =>
    obtain ⟨hready, huniversal⟩ := ih
    refine ⟨fun inv hinv => ?_, ?_⟩
    · rcases List.mem_append.1 hinv with hinv | hinv
      · exact hfirst.1 inv hinv
      · exact hready inv hinv
    · rw [List.flatten_cons, List.any_append, hfirst.2, huniversal, List.any_cons]

/-- A hint, or no hint, states ready invariants. One of them speaks of all arguments when an operand
of the hint declares a method. -/
theorem ofHint_ok {hint : Option Node} (hh : ∀ h ∈ hint, h.IsProgram) (hc : context.IsProgram)
    (hl : lhs.IsProgram) (hr : rhs.IsProgram) :
    ∃ invs, ofHint hint context lhs rhs = .ok invs ∧ (∀ inv ∈ invs, inv.Ready) ∧
      invs.any isUniversal = (hint.map Node.asksUniversal).getD false := by
  obtain ⟨standard, hstandard, hdefaults⟩ := defaults_ok hc hl hr
  have hready : ∀ inv ∈ standard, inv.Ready := fun inv h => (hdefaults inv h).1
  have hnone : standard.any isUniversal = false := by
    simpa using fun inv h => (hdefaults inv h).2
  cases hint with
  | none => exact ⟨standard, hstandard, hready, hnone⟩
  | some hint =>
    have hparts := isProgram_of_conjuncts (hh hint rfl)
    refine mapM_bind_ok (p := StatedBy) (fun part hpart => ?_) fun parts hstated =>
      ⟨parts.flatten, rfl, ready_of_statedBy hstated⟩
    cases hinv : ofConjunct? part with
    | none => exact ⟨standard, hstandard, hready, by rw [hnone, notMethod_of_conjunct hinv]⟩
    | some inv =>
      obtain ⟨hinvReady, huniversal⟩ := ready_of_conjunct (hparts part hpart) hinv
      exact ⟨[inv], rfl, by simpa using hinvReady, by simpa using huniversal⟩

end Invariant

/-! ## Arrows -/

namespace Obligation

/-- Every tree in an obligation stands for a program. -/
def Ready : Obligation → Prop
  | assertion program condition => program.IsProgram ∧ condition.IsProgram
  | equivalence lhs rhs context invariants _ =>
    lhs.IsProgram ∧ rhs.IsProgram ∧ context.IsProgram ∧ ∀ inv ∈ invariants, inv.Ready
  | concede lhs rhs context => lhs.IsProgram ∧ rhs.IsProgram ∧ context.IsProgram
  | replacement lhs rhs context old new assumptions =>
    lhs.IsProgram ∧ rhs.IsProgram ∧ context.IsProgram ∧ old.IsProgram ∧ new.IsProgram ∧
      ∀ pair ∈ assumptions, pair.1.IsProgram ∧ pair.2.IsProgram
  | run terms _ _ => ∀ t ∈ terms, t.IsProgram

/-- The claim that an obligation checks. -/
def claim : Obligation → Claim
  | assertion .. => Claim.assertion
  | equivalence _ _ _ invariants _ =>
    { stem := "equivalent", universal := invariants.any Invariant.isUniversal }
  | concede .. => { stem := "admitted", universal := false }
  | replacement .. => { stem := "validrewrite", universal := false }
  | run .. => Claim.run

end Obligation

/-- Everything that an arrow relates stands for a program. -/
structure Arrow.Ready (a : Arrow) : Prop where
  /-- The term before the arrow. -/
  lhs : a.lhs.IsProgram
  /-- The term after the arrow. -/
  rhs : a.rhs.IsProgram
  /-- The hint. -/
  hint : ∀ h ∈ a.hint, h.IsProgram

/-- A hint asks for a replacement, or admits the goal, or does neither. -/
theorem Node.arrowClaim_cases (h : Node) :
    (∃ old new, replacementTerms? h = some (old, new) ∧ old ∈ h.children ∧ new ∈ h.children ∧
      h.arrowClaim = { stem := "validrewrite", universal := false }) ∨
    (replacementTerms? h = none ∧ isAdmit h = true ∧
      h.arrowClaim = { stem := "admitted", universal := false }) ∨
    (replacementTerms? h = none ∧ isAdmit h = false ∧
      h.arrowClaim = { stem := "equivalent", universal := h.asksUniversal }) := by
  unfold arrowClaim
  split
  · next receiver old new hs =>
    refine .inl ⟨old, new, ?_, ?_, ?_, rfl⟩
    · simp [replacementTerms?, hs]
    · simp [Node.children, hs, Shape.children]
    · simp [Node.children, hs, Shape.children]
  · next type hs =>
    exact .inr (.inl ⟨by simp [replacementTerms?, hs], by simp [isAdmit, Node.varName?, hs], rfl⟩)
  · next hrewrite hadmit =>
    refine .inr (.inr ⟨?_, ?_, rfl⟩)
    · unfold replacementTerms?
      split
      · next hs => exact absurd hs (hrewrite _ _ _)
      · rfl
    · unfold isAdmit varName?
      cases hs : h.shape with
      | var name type =>
        have hname : name ≠ "Admit" := fun he => hadmit type (he ▸ hs)
        simpa using hname
      | _ => rfl

/-- An arrow has a ready obligation, which checks its claim. -/
theorem Arrow.obligation_ok {a : Arrow} {context : Node} {assumptions : List (Node × Node)}
    (ha : a.Ready) (hc : context.IsProgram)
    (hs : ∀ pair ∈ assumptions, pair.1.IsProgram ∧ pair.2.IsProgram) :
    ∃ o, a.obligation context assumptions = .ok o ∧ o.Ready ∧ o.claim = Node.hintClaim a.hint := by
  obtain ⟨lhs, rhs, hint, verbatim⟩ := a
  obtain ⟨hl, hr, hh⟩ := ha
  obtain ⟨invs, hinvs, hready, huniversal⟩ := Invariant.ofHint_ok hh hc hl hr
  dsimp only at hinvs huniversal
  cases hint with
  | none =>
    refine ⟨.equivalence lhs rhs context invs verbatim, ?_, ⟨hl, hr, hc, hready⟩, ?_⟩
    · simp [Arrow.obligation, hinvs]
    · simpa [Obligation.claim, Node.hintClaim] using huniversal
  | some h =>
    rcases h.arrowClaim_cases with ⟨old, new, hterms, hold, hnew, hclaim⟩ |
      ⟨hterms, hadmit, hclaim⟩ | ⟨hterms, hadmit, hclaim⟩
    · refine ⟨.replacement lhs rhs context old new assumptions, ?_, ?_, hclaim.symm⟩
      · simp [Arrow.obligation, hterms]
      · exact ⟨hl, hr, hc, (hh h rfl).child hold, (hh h rfl).child hnew, hs⟩
    · refine ⟨.concede lhs rhs context, ?_, ⟨hl, hr, hc⟩, hclaim.symm⟩
      simp [Arrow.obligation, hterms, hadmit]
    · refine ⟨.equivalence lhs rhs context invs verbatim, ?_, ⟨hl, hr, hc, hready⟩, ?_⟩
      · simp [Arrow.obligation, hterms, hadmit, hinvs]
      · simpa [Obligation.claim, Node.hintClaim, hclaim] using huniversal

/-- The hints of the arrows of a chain are those of its terms but the last. -/
theorem Arrow.hints_ofChain {terms : List Node} {hints : List (Option Node)}
    {verbatims : List String} (hh : hints.length = terms.length)
    (hv : verbatims.length = terms.length) :
    (Arrow.ofChain terms hints verbatims).map Arrow.hint = hints.take (terms.length - 1) := by
  fun_induction Arrow.ofChain terms hints verbatims with
  | case1 => simp
  | case2 lhs hint hints verbatim verbatims rhs rest ih =>
    have htail := ih (Nat.succ.inj hh) (Nat.succ.inj hv)
    simp only [List.map_cons, htail]
    rfl
  | case3 terms hints verbatims hnone =>
    match terms, hints, verbatims, hh, hv with
    | [], [], [], _, _ => rfl
    | lhs :: rest, hint :: hints, verbatim :: verbatims, _, _ =>
      exact (hnone lhs rest hint hints verbatim verbatims rfl rfl rfl).elim

/-- The arrow at a position of a chain relates the terms there, and has the slots of the first. -/
theorem Arrow.getElem?_ofChain {terms : List Node} {hints : List (Option Node)}
    {verbatims : List String} {a : Arrow} {i : Nat}
    (h : (Arrow.ofChain terms hints verbatims)[i]? = some a) :
    terms[i]? = some a.lhs ∧ terms[i + 1]? = some a.rhs ∧ hints[i]? = some a.hint ∧
      verbatims[i]? = some a.verbatim := by
  fun_induction Arrow.ofChain terms hints verbatims generalizing i with
  | case1 => cases h
  | case2 lhs hint hints verbatim verbatims rhs rest ih =>
    cases i with
    | zero =>
      cases h
      exact ⟨rfl, rfl, rfl, rfl⟩
    | succ i => exact ih h
  | case3 => cases h

theorem Arrow.length_ofChain {terms : List Node} {hints : List (Option Node)}
    {verbatims : List String} (hh : hints.length = terms.length)
    (hv : verbatims.length = terms.length) :
    (Arrow.ofChain terms hints verbatims).length = terms.length - 1 := by
  have hhints := congrArg List.length (Arrow.hints_ofChain hh hv)
  rw [List.length_map, List.length_take, hh] at hhints
  omega

/-- What an arrow of a chain relates stands in the chain. -/
theorem Arrow.mem_ofChain {terms : List Node} {hints : List (Option Node)}
    {verbatims : List String} {a : Arrow} (ha : a ∈ Arrow.ofChain terms hints verbatims) :
    a.lhs ∈ terms ∧ a.rhs ∈ terms ∧ a.hint ∈ hints := by
  obtain ⟨i, hi⟩ := List.mem_iff_getElem?.1 ha
  obtain ⟨hl, hr, hh, -⟩ := Arrow.getElem?_ofChain hi
  exact ⟨List.mem_of_getElem? hl, List.mem_of_getElem? hr, List.mem_of_getElem? hh⟩

/-! ## Items -/

/-- Everything in an item stands for a program, and a chain has a slot for each term. -/
def Node.ReadyItem (item : Node) : Prop :=
  match item.shape with
  | .proof terms hints verbatims =>
    2 ≤ terms.length ∧ hints.length = terms.length ∧ verbatims.length = terms.length ∧
      (∀ t ∈ terms, t.IsProgram) ∧ ∀ h ∈ hints, ∀ k ∈ h, k.IsProgram
  | .assert condition => condition.IsProgram
  | .assume chain =>
    ∃ a b hints verbatims, chain.shape = .proof [a, b] hints verbatims ∧ a.IsProgram ∧ b.IsProgram
  | .script _ => False
  | _ => item.IsProgram

/-- The items of a well-formed script are ready. -/
theorem Node.ArrangedItem.ready {item : Node} (h : item.ArrangedItem)
    (hlayers : item.Everywhere fun m => m.shape.WellFormed) : item.ReadyItem := by
  have hroot := hlayers.root
  have hbelow : ∀ k ∈ item.shape.children, k.SurfaceFree → k.IsProgram := fun k hk hfree =>
    hfree.isProgram (hlayers.child hk)
  -- An item that directs no proof is a program as a whole.
  have hwhole : item.isSurface = false → (∀ k ∈ item.shape.children, k.SurfaceFree) →
      item.IsProgram := fun hsurface hfree =>
    SurfaceFree.isProgram (everywhere_iff.2 ⟨hsurface, hfree⟩) hlayers
  unfold ArrangedItem at h
  unfold ReadyItem
  cases hs : item.shape with
  | proof terms hints verbatims =>
    simp only [hs] at h hroot hbelow
    obtain ⟨htwo, hhints, hverbatims, -, -⟩ := hroot
    have hprogram := fun k hk => hbelow k hk (h k hk)
    refine ⟨htwo, hhints, hverbatims, fun t ht => hprogram t (List.mem_append_left _ ht), ?_⟩
    intro o ho k hk
    exact hprogram k (List.mem_append_right _ (List.mem_filterMap.2 ⟨o, ho, hk⟩))
  | assert condition =>
    simp only [hs] at h hbelow
    exact hbelow condition List.mem_cons_self (h condition List.mem_cons_self)
  | assume chain =>
    simp only [hs] at h hroot
    obtain ⟨a, b, hints, verbatims, hchain⟩ := hroot
    have hlayers' :=
      hlayers.child (show chain ∈ item.children by simp [children, hs, Shape.children])
    have ha : a ∈ chain.children := by simp [children, hchain, Shape.children]
    have hb : b ∈ chain.children := by simp [children, hchain, Shape.children]
    exact ⟨a, b, hints, verbatims, hchain, (h.2 a ha).isProgram (hlayers'.child ha),
      (h.2 b hb).isProgram (hlayers'.child hb)⟩
  | script items => simp only [hs] at h
  | _ =>
    simp only [hs] at h
    exact hwhole (by simp [isSurface, tag, hs, Shape.tag, Tag.isSurface]) (by simpa [hs] using h)

/-! ## Scripts -/

namespace Script

/-- What has been gathered from the items `done` is ready, and checks their claims. -/
structure Progress.Ready (done : List Node) (p : Progress) : Prop where
  /-- The statements so far stand for a program. -/
  context : p.context.IsProgram
  /-- The terms of the assumptions stand for programs. -/
  assumptions : ∀ pair ∈ p.assumptions, pair.1.IsProgram ∧ pair.2.IsProgram
  /-- The obligations are ready. -/
  obligations : ∀ o ∈ p.obligations, o.Ready
  /-- The obligations check the claims of the items. -/
  claims : p.obligations.map Obligation.claim = done.flatMap Node.itemClaims

theorem ready_of_arrows {as : List Arrow} {os : List Obligation}
    (h : List.Forall₂ (fun a o => o.Ready ∧ o.claim = Node.hintClaim a.hint) as os) :
    (∀ o ∈ os, o.Ready) ∧ os.map Obligation.claim = as.map fun a => Node.hintClaim a.hint := by
  induction h with
  | nil => exact ⟨fun _ h => absurd h List.not_mem_nil, rfl⟩
  | cons h _ ih =>
    obtain ⟨hready, hclaims⟩ := ih
    exact ⟨List.forall_mem_cons.2 ⟨h.1, hready⟩, by simp [h.2, hclaims]⟩

/-- The arrows of a ready chain have ready obligations, which check their claims. -/
theorem obligations_of_chain {p : Progress} {done terms : List Node} {hints : List (Option Node)}
    (verbatims : List String) (hp : p.Ready done) (hterms : ∀ t ∈ terms, t.IsProgram)
    (hhints : ∀ h ∈ hints, ∀ k ∈ h, k.IsProgram) :
    ∃ os, ((Arrow.ofChain terms hints verbatims).mapM fun a =>
        a.obligation p.context p.assumptions) = .ok os ∧ (∀ o ∈ os, o.Ready) ∧
      os.map Obligation.claim =
        (Arrow.ofChain terms hints verbatims).map fun a => Node.hintClaim a.hint := by
  have step : ∀ a ∈ Arrow.ofChain terms hints verbatims,
      ∃ o, a.obligation p.context p.assumptions = .ok o ∧
        (o.Ready ∧ o.claim = Node.hintClaim a.hint) := by
    intro a ha
    obtain ⟨hl, hr, hh⟩ := Arrow.mem_ofChain ha
    exact Arrow.obligation_ok ⟨hterms _ hl, hterms _ hr, hhints _ hh⟩ hp.context hp.assumptions
  obtain ⟨os, hos, hrel⟩ := mapM_ok step
  exact ⟨os, hos, ready_of_arrows hrel⟩

/-- A ready item keeps what is gathered ready. -/
theorem Progress.Ready.proofStep {done : List Node} {p : Progress} {item : Node}
    (hp : p.Ready done) (hitem : item.ReadyItem) :
    ∃ q, Script.proofStep p item = .ok q ∧ q.Ready (done ++ [item]) := by
  have hmore : ∀ {os : List Obligation}, (∀ o ∈ os, o.Ready) →
      os.map Obligation.claim = item.itemClaims →
      Progress.Ready (done ++ [item]) { p with obligations := p.obligations ++ os } := by
    intro os hready hclaims
    refine ⟨hp.context, hp.assumptions, fun o ho => ?_, by simp [hp.claims, hclaims]⟩
    exact (List.mem_append.1 ho).elim (hp.obligations o) (hready o)
  unfold Script.proofStep
  unfold Node.ReadyItem at hitem
  cases hs : item.shape with
  | proof terms hints verbatims =>
    simp only [hs] at hitem
    obtain ⟨htwo, hhints, hverbatims, hterms, hall⟩ := hitem
    obtain ⟨os, hos, hready, hclaims⟩ :=
      obligations_of_chain verbatims hp hterms hall
    have hslots : ¬((decide (terms.length < 2) || hints.length != terms.length ||
        verbatims.length != terms.length) = true) := by
      simp [hhints, hverbatims, Nat.not_lt.2 htwo]
    refine ⟨_, (if_neg hslots).trans (bind_of_ok hos rfl), hmore hready ?_⟩
    simp only [Node.itemClaims, hs, hclaims, ← Arrow.hints_ofChain hhints hverbatims, List.map_map]
    rfl
  | assert condition =>
    simp only [hs] at hitem
    refine ⟨_, rfl, hmore ?_ (by simp [Node.itemClaims, hs, Obligation.claim])⟩
    simpa [Obligation.Ready] using ⟨hp.context, hitem⟩
  | assume chain =>
    simp only [hs] at hitem
    obtain ⟨a, b, hints, verbatims, hchain, ha, hb⟩ := hitem
    simp only [hchain]
    refine ⟨_, rfl, hp.context, fun pair hpair => ?_, hp.obligations, ?_⟩
    · rcases List.mem_append.1 hpair with hpair | hpair
      · exact hp.assumptions pair hpair
      · obtain rfl := List.mem_singleton.1 hpair
        exact ⟨ha, hb⟩
    · simp [hp.claims, Node.itemClaims, hs]
  | script items => simp only [hs] at hitem
  | _ =>
    simp only [hs] at hitem
    exact ⟨_, rfl, hp.context.andThen hitem, hp.assumptions, hp.obligations,
      by simp [hp.claims, Node.itemClaims, hs]⟩

theorem Progress.ready_start : Progress.start.Ready [] :=
  ⟨Node.isProgram_nop, fun _ h => absurd h List.not_mem_nil, fun _ h => absurd h List.not_mem_nil,
    rfl⟩

/-- A script of ready items has ready obligations, and they check its claims. -/
theorem proofObligations_ok {s : Script} (h : ∀ item ∈ s.items, item.ReadyItem) :
    ∃ os, s.proofObligations = .ok os ∧ (∀ o ∈ os, o.Ready) ∧
      os.map Obligation.claim = s.items.flatMap Node.itemClaims := by
  obtain ⟨p, hp, hready⟩ := foldlM_ok (fun done p => Progress.Ready done p)
    (fun _ _ item hitem hp => hp.proofStep (h item hitem)) Progress.ready_start
  exact ⟨p.obligations, bind_of_ok hp rfl, hready.obligations, hready.claims⟩

/-- A ready item that directs no proof stands for a program. -/
theorem isProgram_of_readyItem {item : Node} (h : item.ReadyItem) (hs : item.isSurface = false) :
    item.IsProgram := by
  unfold Node.ReadyItem at h
  rw [Node.isSurface, Node.tag] at hs
  cases hshape : item.shape with
  | script | proof | assert | assume => simp [hshape, Shape.tag, Tag.isSurface] at hs
  | _ => simpa only [hshape] using h

/-- A ready item keeps what is gathered in evaluation mode ready. -/
theorem ready_of_evalStep {p : Progress} {item : Node} (hitem : item.ReadyItem)
    (hc : p.context.IsProgram) (ho : ∀ o ∈ p.obligations, o.Ready ∧ o.claim = Claim.assertion) :
    (evalStep p item).context.IsProgram ∧
      ∀ o ∈ (evalStep p item).obligations, o.Ready ∧ o.claim = Claim.assertion := by
  unfold evalStep
  split
  · next condition hs =>
    have hcondition : condition.IsProgram := by simpa only [Node.ReadyItem, hs] using hitem
    refine ⟨hc, fun o hmem => ?_⟩
    rcases List.mem_append.1 hmem with hmem | hmem
    · exact ho o hmem
    · obtain rfl := List.mem_singleton.1 hmem
      exact ⟨⟨hc, hcondition⟩, rfl⟩
  · split
    · exact ⟨hc, ho⟩
    · next hs => exact ⟨hc.andThen (isProgram_of_readyItem hitem (by simpa using hs)), ho⟩

/-- A script of ready items has ready obligations in evaluation mode, and none of them speaks of all
arguments. -/
theorem runObligations_ready {s : Script} (h : ∀ item ∈ s.items, item.ReadyItem) :
    ∀ o ∈ s.runObligations, o.Ready ∧ o.claim.universal = false := by
  have gathered : ∀ (items : List Node) (p : Progress), (∀ item ∈ items, item.ReadyItem) →
      p.context.IsProgram → (∀ o ∈ p.obligations, o.Ready ∧ o.claim = Claim.assertion) →
      ∀ o ∈ (items.foldl evalStep p).obligations, o.Ready ∧ o.claim = Claim.assertion := by
    intro items
    induction items with
    | nil => exact fun p _ _ ho => ho
    | cons item items ih =>
      intro p hitems hc ho
      obtain ⟨hc', ho'⟩ := ready_of_evalStep (hitems item List.mem_cons_self) hc ho
      exact ih _ (fun i hi => hitems i (List.mem_cons_of_mem _ hi)) hc' ho'
  intro o ho
  rcases List.mem_append.1 ho with ho | ho
  · obtain ⟨hready, hclaim⟩ := gathered s.items Progress.start h Node.isProgram_nop
      (fun _ h => absurd h List.not_mem_nil) o ho
    exact ⟨hready, by rw [hclaim]; rfl⟩
  · obtain rfl := List.mem_singleton.1 ho
    refine ⟨fun t ht => ?_, rfl⟩
    obtain ⟨hmem, hsurface⟩ := List.mem_filter.1 ht
    exact isProgram_of_readyItem (h t hmem) (by simpa using hsurface)

/-- A well-formed tree of a script gives a script of ready items, which makes the same claims. -/
theorem ofNode_ok {n : Node} (h : n.WellFormed) (hn : n.tag = .script) :
    ∃ s, ofNode n = .ok s ∧ (∀ item ∈ s.items, item.ReadyItem) ∧
      s.items.flatMap Node.itemClaims = n.claims := by
  obtain ⟨m, hm, hmarks⟩ := Node.annotateImmutable_ok (h.layers.imp fun _ hk => hk.fits)
  have hwf := h.congr hmarks
  have htag : m.tag = .script := by rw [← Node.tag_unmarked, hmarks, Node.tag_unmarked, hn]
  rw [← Node.claims_congr hmarks]
  unfold Node.tag at htag
  cases hs : m.shape with
  | script items =>
    refine ⟨{ items := items, seed := none, expect := none }, by simp [ofNode, hm, hs], ?_, ?_⟩
    · intro item hitem
      have harranged := hwf.arranged
      simp only [Node.Arranged, hs] at harranged
      exact (harranged item hitem).ready (hwf.layers.child (by
        simpa [Node.children, hs, Shape.children] using hitem))
    · simp [Node.claims, hs]
  | _ => simp [hs, Shape.tag] at htag

end Script

end ProofScript
