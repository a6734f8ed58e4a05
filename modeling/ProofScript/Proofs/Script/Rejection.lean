import ProofScript.Proofs.Object.Gathering
import ProofScript.Proofs.Object.Monotone
import ProofScript.Proofs.Script.Preceding

/-!
# What proof mode refuses

A tree becomes a script when it is a script whose initialisers can be marked, so the nodes of its
items stand where they belong. This is all that the objects around an arrow need, and all that an
assumption needs. The only faults left are those that no position looks for: a script among the
items, and a proof chain that has too few terms or not one slot for each term
(`Script.proofObligations_rejects`).
-/

namespace ProofScript

/-! ## Malformed items -/

/-- The item is a script itself, or a proof chain with fewer than two terms or not one hint and one
verbatim text for each term. -/
def Node.MalformedItem (item : Node) : Prop :=
  match item.shape with
  | .script _ => True
  | .proof terms hints verbatims =>
    terms.length < 2 ∨ hints.length ≠ terms.length ∨ verbatims.length ≠ terms.length
  | _ => False

instance : DecidablePred Node.MalformedItem := fun item => by
  unfold Node.MalformedItem
  split <;> infer_instance

namespace Node

@[simp] theorem span_unmarked (n : Node) : n.unmarked.span = n.span := by
  cases n
  rw [unmarked_mk]
  rfl

/-- The marks of initialisers do not make an item malformed. -/
theorem malformedItem_unmarked (item : Node) :
    item.unmarked.MalformedItem ↔ item.MalformedItem := by
  unfold MalformedItem
  rw [shape_unmarked]
  cases item.shape with
  | proof => simp [Shape.map, Shape.unmarked]
  | _ => rfl

theorem malformedItem_congr {item item' : Node} (h : item.unmarked = item'.unmarked) :
    item.MalformedItem ↔ item'.MalformedItem := by
  rw [← malformedItem_unmarked, h, malformedItem_unmarked]

theorem not_malformed_of_unmarked {items items' : List Node}
    (h : items.map unmarked = items'.map unmarked) (hitems : ∀ item ∈ items, ¬item.MalformedItem) :
    ∀ item ∈ items', ¬item.MalformedItem := by
  intro item hitem
  have hmem : item.unmarked ∈ items.map unmarked := h ▸ List.mem_map_of_mem hitem
  obtain ⟨other, hother, hsame⟩ := List.mem_map.1 hmem
  rw [← malformedItem_congr hsame]
  exact hitems other hother

end Node

/-! ## Arrows between trees whose nodes are where they belong -/

section Arrows

variable {context lhs rhs : Node}

/-- The default invariants only need the objects. -/
theorem Invariant.exists_defaults (h : ∀ root ∈ [context, lhs, rhs], root.Fits) :
    ∃ invs, defaults context lhs rhs = .ok invs := by
  obtain ⟨objects, hobjects⟩ := Objects.ofNodes_ok h
  exact ⟨_, bind_of_ok hobjects rfl⟩

/-- Whatever a hint is, it states invariants. -/
theorem Invariant.exists_ofHint (hint : Option Node)
    (h : ∀ root ∈ [context, lhs, rhs], root.Fits) :
    ∃ invs, ofHint hint context lhs rhs = .ok invs := by
  obtain ⟨standard, hstandard⟩ := exists_defaults h
  cases hint with
  | none => exact ⟨standard, hstandard⟩
  | some hint =>
    refine (mapM_bind_ok (p := fun _ _ => True) (q := fun _ => True) (fun part _ => ?_)
      fun parts _ => ⟨parts.flatten, rfl, trivial⟩).imp fun _ h => h.1
    cases ofConjunct? part with
    | none => exact ⟨standard, hstandard, trivial⟩
    | some inv => exact ⟨[inv], rfl, trivial⟩

/-- An arrow has an obligation. -/
theorem Arrow.exists_obligation (a : Arrow) (assumptions : List (Node × Node))
    (h : ∀ root ∈ [context, a.lhs, a.rhs], root.Fits) :
    ∃ o, a.obligation context assumptions = .ok o := by
  obtain ⟨invs, hinvs⟩ := Invariant.exists_ofHint a.hint h
  unfold Arrow.obligation
  rw [hinvs]
  split
  · exact ⟨_, rfl⟩
  · split
    · exact ⟨_, rfl⟩
    · exact ⟨_, rfl⟩

end Arrows

/-! ## Items -/

namespace Script

variable {done : List Node} {item : Node} {p : Progress}

/-- The statements among some items make up a program whose nodes stand where they belong. -/
theorem fits_contextOf {items : List Node} (h : ∀ item ∈ items, item.Fits) :
    (contextOf items).Fits := by
  refine Node.fits_foldl_andThen (fun item hitem => ?_) Node.isProgram_nop.fits rfl
  obtain ⟨hmem, hsurface⟩ := List.mem_filter.1 hitem
  exact ⟨h item hmem, by simpa using hsurface⟩

/-- Around an arrow of an item, the nodes of the statements before the item and of the two sides
stand where they belong. -/
theorem fits_around_arrow {terms : List Node} {hints : List (Option Node)} {verbatims : List String}
    {lhs rhs : Node} (hdone : ∀ item ∈ done, item.Fits) (hitem : item.Fits)
    (hshape : item.shape = .proof terms hints verbatims) (hl : lhs ∈ terms) (hr : rhs ∈ terms) :
    ∀ root ∈ [contextOf done, lhs, rhs], root.Fits := by
  have hterms : ∀ t ∈ terms, t.Fits := fun t ht =>
    hitem.child (by simp [Node.children, hshape, Shape.children, ht])
  simpa using ⟨fits_contextOf hdone, hterms lhs hl, hterms rhs hr⟩

/-- A malformed item is refused, whatever stands before it. -/
theorem proofStep_of_malformed (p : Progress) (h : item.MalformedItem) :
    ∃ e, proofStep p item = .error e ∧ e.span = item.span ∧
      (∀ found, e.fault ≠ .assumption found) ∧ ∀ fault, e.fault ≠ .tree fault := by
  unfold Node.MalformedItem at h
  unfold proofStep
  split at h
  · next hs =>
    simp only [hs]
    exact ⟨_, rfl, rfl, fun _ => nofun, fun _ => nofun⟩
  · next terms hints verbatims hs =>
    have hslots : (decide (terms.length < 2) || hints.length != terms.length ||
        verbatims.length != terms.length) = true := by
      simpa [or_assoc] using h
    simp only [hs]
    exact ⟨_, if_pos hslots, rfl, fun _ => nofun, fun _ => nofun⟩
  · contradiction

/-- An item that is not malformed is passed when its nodes, and those of the items before it, stand
where they belong. -/
theorem proofStep_of_fits (hp : p.After done) (hdone : ∀ item ∈ done, item.Fits)
    (hitem : item.Fits) (h : ¬item.MalformedItem) : ∃ q, proofStep p item = .ok q := by
  unfold Node.MalformedItem at h
  unfold proofStep
  cases hs : item.shape with
  | proof terms hints verbatims =>
    have hslots : ¬((decide (terms.length < 2) || hints.length != terms.length ||
        verbatims.length != terms.length) = true) := by
      simpa [hs, or_assoc] using h
    have harrows : ∀ a ∈ Arrow.ofChain terms hints verbatims,
        ∃ o, a.obligation p.context p.assumptions = .ok o ∧ True := by
      intro a ha
      obtain ⟨hl, hr, -⟩ := Arrow.mem_ofChain ha
      rw [hp.context_eq]
      obtain ⟨o, ho⟩ := a.exists_obligation p.assumptions (fits_around_arrow hdone hitem hs hl hr)
      exact ⟨o, ho, trivial⟩
    obtain ⟨os, hos, -⟩ := mapM_ok harrows
    exact ⟨_, (if_neg hslots).trans (bind_of_ok hos rfl)⟩
  | assume chain =>
    -- The position of the chain has been checked: it has two terms.
    have hseats : item.shape.Seats := Shape.fits_iff.1 hitem.root
    rw [hs] at hseats
    obtain ⟨a, b, hints, verbatims, hchain⟩ := hseats
    simp only [hchain]
    exact ⟨_, rfl⟩
  | script => simp [hs] at h
  | _ => exact ⟨_, rfl⟩

/-! ## Scripts -/

/-- The items of a script are those of the tree, up to marks, and their nodes stand where they
belong. -/
theorem items_of_ofNode {n : Node} {s : Script} (h : ofNode n = .ok s) :
    (∀ item ∈ s.items, item.Fits) ∧ ∃ items, n.shape = .script items ∧
      items.map Node.unmarked = s.items.map Node.unmarked := by
  unfold ofNode at h
  split at h
  · cases h
  · next m hm =>
    obtain ⟨m', hm', hmarks⟩ := Node.annotateImmutable_ok (Node.fits_of_annotateImmutable hm)
    obtain rfl : m = m' := Except.ok.inj (hm.symm.trans hm')
    obtain ⟨mutations, -, hmark⟩ := Node.annotateImmutable_cases hm
    obtain ⟨t, hrun, -⟩ := Pass.walk_of_run hmark
    have hfits : m.Fits := ((mutations.mark.ends_walkIn_fits _ none n _).of_run hrun).1
    split at h
    · next items hs =>
      cases h
      refine ⟨fun item hitem => hfits.child ?_, ?_⟩
      · simpa [Node.children, hs, Shape.children] using hitem
      · have hshape := congrArg Node.shape hmarks
        rw [Node.shape_unmarked, Node.shape_unmarked, hs] at hshape
        cases hn : n.shape with
        | script given =>
          rw [hn] at hshape
          exact ⟨given, rfl, (Shape.script.inj hshape).symm⟩
        | _ => rw [hn] at hshape; cases hshape
    · cases h

/-- Items without a malformed one among them are passed. -/
theorem exists_progress {items : List Node} (hfits : ∀ item ∈ items, item.Fits)
    (h : ∀ item ∈ items, ¬item.MalformedItem) :
    ∃ p, items.foldlM proofStep Progress.start = .ok p := by
  refine (foldlM_ok (fun done p => p.After done ∧ ∀ item ∈ done, item.Fits) ?_
    ⟨Progress.after_start, by simp⟩).imp fun _ h => h.1
  rintro done p item hitem ⟨hp, hdone⟩
  obtain ⟨q, hq⟩ := proofStep_of_fits hp hdone (hfits item hitem) (h item hitem)
  refine ⟨q, hq, hp.proofStep hq, fun k hk => ?_⟩
  rcases List.mem_append.1 hk with hk | hk
  · exact hdone k hk
  · exact List.mem_singleton.1 hk ▸ hfits item hitem

/-- The first malformed item is what a script is refused for. -/
theorem refused_for_first {s : Script} {before after : List Node}
    (hfits : ∀ item ∈ s.items, item.Fits) (hitems : s.items = before ++ item :: after)
    (hbefore : ∀ other ∈ before, ¬other.MalformedItem) (hitem : item.MalformedItem) :
    ∃ e, s.proofObligations = .error e ∧ e.span = item.span ∧
      (∀ found, e.fault ≠ .assumption found) ∧ ∀ fault, e.fault ≠ .tree fault := by
  have hmem : ∀ k ∈ before, k ∈ s.items := fun k hk => hitems ▸ List.mem_append_left _ hk
  obtain ⟨p, hp⟩ := exists_progress (fun k hk => hfits k (hmem k hk)) hbefore
  obtain ⟨e, he, hspan, hfault⟩ := proofStep_of_malformed p hitem
  refine ⟨e, ?_, hspan, hfault⟩
  unfold proofObligations
  rw [hitems, List.foldlM_append, hp]
  show (List.foldlM proofStep p (item :: after) >>= _) = _
  rw [List.foldlM_cons, he]
  rfl

/-- Proof mode refuses exactly the scripts with a malformed item, and the error is placed at the
first of them. Nothing else goes wrong: every assumption relates two terms, and the objects that an
arrow asks for can always be collected from the statements before the item and the two sides. The
tree may be any that becomes a script; what directs a proof may stand anywhere in it. -/
theorem proofObligations_rejects {n : Node} {s : Script} (h : ofNode n = .ok s) :
    ∃ items, n.shape = .script items ∧
      ((∃ e, s.proofObligations = .error e) ↔ ∃ item ∈ items, item.MalformedItem) ∧
      (∀ e, s.proofObligations = .error e →
        (∃ before item after, items = before ++ item :: after ∧ item.MalformedItem ∧
          (∀ other ∈ before, ¬other.MalformedItem) ∧ e.span = item.span) ∧
        (∀ found, e.fault ≠ .assumption found) ∧ ∀ fault, e.fault ≠ .tree fault) ∧
      ∀ before item after terms hints verbatims, s.items = before ++ item :: after →
        item.shape = .proof terms hints verbatims → ∀ lhs ∈ terms, ∀ rhs ∈ terms,
          ∃ objects, Objects.ofNodes [contextOf before, lhs, rhs] = .ok objects := by
  obtain ⟨hfits, items, hshape, hmarks⟩ := items_of_ofNode h
  refine ⟨items, hshape, ?_⟩
  have hobjects : ∀ before item after terms hints verbatims, s.items = before ++ item :: after →
      item.shape = .proof terms hints verbatims → ∀ lhs ∈ terms, ∀ rhs ∈ terms,
        ∃ objects, Objects.ofNodes [contextOf before, lhs, rhs] = .ok objects := by
    intro before item after terms hints verbatims hitems hproof lhs hl rhs hr
    have hmem : ∀ k ∈ before ++ item :: after, k.Fits := hitems ▸ hfits
    exact Objects.ofNodes_ok (fits_around_arrow (fun k hk => hmem k (List.mem_append_left _ hk))
      (hmem item (by simp)) hproof hl hr)
  cases hfind : s.items.find? fun item => decide item.MalformedItem with
  | none =>
    have hnone : ∀ item ∈ s.items, ¬item.MalformedItem := by simpa using hfind
    have hgiven := Node.not_malformed_of_unmarked hmarks.symm hnone
    obtain ⟨p, hp⟩ := exists_progress hfits hnone
    have hok : s.proofObligations = .ok p.obligations := bind_of_ok hp rfl
    simp only [hok, reduceCtorEq, exists_false, false_iff, not_exists, not_and, false_implies,
      implies_true, true_and]
    exact ⟨hgiven, hobjects⟩
  | some item =>
    obtain ⟨hitem, before, after, hitems, hbefore⟩ := List.find?_eq_some_iff_append.1 hfind
    have hitem : item.MalformedItem := by simpa using hitem
    have hbefore : ∀ other ∈ before, ¬other.MalformedItem := by simpa using hbefore
    obtain ⟨e, he, hspan, hfault⟩ := refused_for_first hfits hitems hbefore hitem
    -- The items of the tree are split where those of the script are.
    rw [hitems, List.map_append, List.map_cons] at hmarks
    obtain ⟨before', rest, rfl, hbefore', hrest⟩ := List.map_eq_append_iff.1 hmarks
    obtain ⟨item', after', rfl, hitem', -⟩ := List.map_eq_cons_iff.1 hrest
    have hmalformed : item'.MalformedItem := (Node.malformedItem_congr hitem').2 hitem
    refine ⟨iff_of_true ⟨e, he⟩ ⟨item', by simp, hmalformed⟩, fun e' he' => ?_, hobjects⟩
    obtain rfl : e = e' := Except.error.inj (he.symm.trans he')
    refine ⟨⟨before', item', after', rfl, hmalformed,
      Node.not_malformed_of_unmarked hbefore'.symm hbefore, ?_⟩, hfault⟩
    rw [hspan, ← item.span_unmarked, ← hitem', item'.span_unmarked]

/-- A script with constructs that direct a proof in odd places: inside a tuple, as the term of a
chain, and below an assumption whose chain has no slots. Two of its items are malformed. -/
theorem proofObligations_rejects_shortChain :
    let x := Node.var "x"
    let odd := Node.detached (.tuple [.detached (.assert x), .detached (.script [])])
    let assumption := Node.detached (.assume (.detached (.proof [x, odd] [] [])))
    let object := Node.detached (.new [.detached (.init "x" (.int 0) false)] odd)
    let chain := Node.detached (.proof [object, odd] [none, none] ["", ""])
    let short := Node.mk .detached ⟨7, 5⟩ (.proof [x] [none] [""])
    let nested := Node.mk .detached ⟨20, 1⟩ (.script [])
    let n := Node.detached (.script [odd, assumption, chain, short, nested])
    ∃ s, ofNode n = .ok s ∧ ∃ e, s.proofObligations = .error e ∧ e.span = ⟨7, 5⟩ := by
  intro x odd assumption object chain short nested n
  have hok : (ofNode n).isOk = true := by decide +kernel +zetaReduce
  cases hs : ofNode n with
  | error e =>
    rw [hs] at hok
    cases hok
  | ok s =>
    obtain ⟨items, hitems, hrejects, hfirst, -⟩ := proofObligations_rejects hs
    obtain rfl : _ = items := Shape.script.inj hitems
    obtain ⟨e, he⟩ := hrejects.2 ⟨short, by simp, by decide⟩
    obtain ⟨⟨before, item, after, hsplit, hitem, hbefore, hspan⟩, -⟩ := hfirst e he
    have hfind : [odd, assumption, chain, short, nested].find?
        (fun item => decide item.MalformedItem) = some item :=
      List.find?_eq_some_iff_append.2
        ⟨by simpa using hitem, before, after, hsplit, by simpa using hbefore⟩
    obtain rfl : short = item := Option.some.inj hfind
    exact ⟨s, rfl, e, he, hspan⟩

end Script

end ProofScript
