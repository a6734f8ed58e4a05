import ProofScript.Proofs.Code.Terms
import ProofScript.Proofs.Node.Slots

/-!
# Both notations write down the same trees

Each notation has a layer of its own for every construct. What they share is how a layer fails: it
fails at a construct that directs a proof, and otherwise as the first of its children does. The
formal parameters of a method are the one place where this takes the positions into account, since
Dafny does not write them down as terms. So both notations refuse a tree for the same node, the
first one in preorder that directs a proof (`outcome_of_layer`).
-/

namespace ProofScript

/-! ## Outcomes -/

section Outcome

variable {ε α β : Type}

/-- How a computation ends, without its result. -/
def outcome (x : Except ε α) : Except ε Unit := x.map fun _ => ()

theorem exists_of_outcome {x : Except ε α} (h : outcome x = .ok ()) : ∃ a, x = .ok a := by
  cases x with
  | error e => cases h
  | ok a => exact ⟨a, rfl⟩

theorem error_of_outcome {x : Except ε α} {e : ε} (h : outcome x = .error e) : x = .error e := by
  cases x with
  | error e' => exact congrArg _ (Except.error.inj h)
  | ok a => cases h

@[simp] theorem outcome_map (g : α → β) (x : Except ε α) : outcome (g <$> x) = outcome x := by
  cases x <;> rfl

@[simp] theorem outcome_bind (x : Except ε α) (f : α → Except ε β) :
    outcome (x >>= f) = x >>= fun a => outcome (f a) := by
  cases x <;> rfl

end Outcome

namespace Node

variable {α : Type} {n m : Node} {s : Shape Node}

/-- The first node of a tree, in preorder, that directs a proof. -/
def firstSurface? (n : Node) : Option Node := n.preorder.find? isSurface

theorem firstSurface?_of_surface (h : n.isSurface = true) : n.firstSurface? = some n := by
  cases n
  rw [firstSurface?, preorder_mk, List.find?_cons_of_pos h]

theorem firstSurface?_mk {id : NodeId} {span : Span} (h : s.tag.isSurface = false) :
    (mk id span s).firstSurface? = s.children.findSome? firstSurface? := by
  have hroot : ¬(mk id span s).isSurface = true := Bool.not_eq_true _ ▸ h
  rw [firstSurface?, preorder_mk, List.find?_cons_of_neg hroot, List.find?_flatMap]
  rfl

theorem surfaceFree_iff : n.SurfaceFree ↔ n.firstSurface? = none := by
  simp [SurfaceFree, Everywhere, firstSurface?]

/-- How the rendering of a tree ends, from the first node of the tree that directs a proof. -/
def verdict : Option Node → Except CodeFault Unit
  | none => .ok ()
  | some m => .error (.notExpression m)

/-- Trees that are rendered one after the other are refused for the first node of them all that
directs a proof. -/
theorem outcome_mapM {f : Node → Except CodeFault α} {ns : List Node}
    (h : ∀ k ∈ ns, outcome (f k) = verdict k.firstSurface?) :
    outcome (ns.mapM f) = verdict (ns.findSome? firstSurface?) := by
  induction ns with
  | nil => rfl
  | cons k ns ih =>
    have hk := h k List.mem_cons_self
    have hns := ih fun l hl => h l (List.mem_cons_of_mem _ hl)
    rw [List.mapM_cons, List.findSome?_cons]
    cases hfirst : k.firstSurface? with
    | some m =>
      rw [hfirst] at hk
      rw [error_of_outcome hk]
      rfl
    | none =>
      rw [hfirst] at hk
      obtain ⟨a, ha⟩ := exists_of_outcome hk
      rw [ha, ← hns]
      show outcome (ns.mapM f >>= fun as => pure (a :: as)) = _
      cases ns.mapM f <;> rfl

/-- A notation refuses a tree for the first node that directs a proof, when each of its layers
refuses such a node and otherwise ends as the children of the node do, one after the other. -/
theorem outcome_of_layer {term : Node → Except CodeFault String}
    (hsurface : ∀ m : Node, m.isSurface = true → term m = .error (.notExpression m))
    (hlayer : ∀ id span (s : Shape Node), s.Fits → s.tag.isSurface = false →
      outcome (term (mk id span s)) = outcome (s.children.mapM term))
    (h : n.Fits) : outcome (term n) = verdict n.firstSurface? := by
  induction n using induct with
  | step id span s ih =>
    obtain ⟨hlayerFits, hbelow⟩ := everywhere_mk.1 h
    cases hs : s.tag.isSurface with
    | true =>
      have hroot : (mk id span s).isSurface = true := hs
      rw [hsurface _ hroot, firstSurface?_of_surface hroot]
      rfl
    | false =>
      rw [hlayer id span s hlayerFits hs, firstSurface?_mk hs]
      exact outcome_mapM fun k hk => ih k hk (hbelow k hk)

end Node

/-! ## The two notations -/

variable {n : Node} {s : Shape Node} {f : Node → Except CodeFault String}

namespace Dafny

theorem outcome_layer (hn : n.shape = s) (hfits : s.Fits) (hs : s.tag.isSurface = false)
    (hvar : ∀ k : Node, k.tag = .var → ∃ t, f k = .ok t) :
    outcome (layer n (s.map f)) = outcome (s.children.mapM f) := by
  cases s with
  | script | proof | assert | assume => contradiction
  | const | var | nop => rfl
  | method name formals body =>
    have hformals : ∀ k ∈ formals, k.tag = .var := (Shape.fits_iff.1 hfits :)
    obtain ⟨names, hnames⟩ := formalNames_ok hformals
    obtain ⟨texts, htexts, -⟩ := mapM_ok (p := fun _ _ => True) fun k hk =>
      (hvar k (hformals k hk)).imp fun _ h => ⟨h, trivial⟩
    simp only [Shape.map, layer, hn, hnames, Shape.children, List.mapM_append, htexts,
      List.mapM_cons, List.mapM_nil]
    cases f body <;> rfl
  | _ => simp [Shape.map, layer, Shape.children]

end Dafny

namespace Rosette

theorem outcome_layer (hs : s.tag.isSurface = false) :
    outcome (layer n (s.map f)) = outcome (s.children.mapM f) := by
  cases s with
  | script | proof | assert | assume => contradiction
  | const | nop => rfl
  | var name type => cases type <;> rfl
  | _ => simp [Shape.map, layer, Shape.children]

end Rosette

/-! ## Terms of a tree -/

namespace Dafny

theorem outcome_term (h : n.Fits) : outcome (term n) = Node.verdict n.firstSurface? := by
  refine Node.outcome_of_layer (fun m hm => ?_) (fun id span s hfits hs => ?_) h
  · obtain ⟨id, span, s⟩ := m
    rw [term_mk]
    cases s with
    | script | proof | assert | assume => rfl
    | _ => cases hm
  · rw [term_mk]
    refine outcome_layer rfl hfits hs fun k hk => ?_
    obtain ⟨id, span, s⟩ := k
    cases s with
    | var name type => exact ⟨_, rfl⟩
    | _ => cases hk

end Dafny

namespace Rosette

theorem outcome_term (h : n.Fits) : outcome (term n) = Node.verdict n.firstSurface? := by
  refine Node.outcome_of_layer (fun m hm => ?_) (fun id span s _ hs => ?_) h
  · obtain ⟨id, span, s⟩ := m
    rw [term_mk]
    cases s with
    | script | proof | assert | assume => rfl
    | _ => cases hm
  · rw [term_mk]
    exact outcome_layer hs

end Rosette

/-- Both notations have a term for a tree in which nothing directs a proof, and for no other. They
refuse any other tree for the same reason, the first node in preorder that directs a proof. The
trees are those that a walk without changes gets through. -/
theorem Node.terms_agree {n kept : Node}
    (h : (Pass.keep : Pass Unit).run () n = .ok (kept, ())) :
    ((∃ t, Dafny.term n = .ok t) ↔ n.SurfaceFree) ∧
      ((∃ t, Rosette.term n = .ok t) ↔ n.SurfaceFree) ∧
      (¬n.SurfaceFree → ∃ m, n.preorder.find? isSurface = some m ∧
        Dafny.term n = .error (.notExpression m) ∧
        Rosette.term n = .error (.notExpression m)) := by
  have hfits := fits_of_keep h
  have hdafny := Dafny.outcome_term hfits
  have hrosette := Rosette.outcome_term hfits
  rw [surfaceFree_iff]
  cases hfirst : n.firstSurface? with
  | none =>
    rw [hfirst] at hdafny hrosette
    have hd := exists_of_outcome hdafny
    have hr := exists_of_outcome hrosette
    exact ⟨iff_of_true hd rfl, iff_of_true hr rfl, fun hne => absurd rfl hne⟩
  | some m =>
    rw [hfirst] at hdafny hrosette
    have hd := error_of_outcome hdafny
    have hr := error_of_outcome hrosette
    rw [hd, hr]
    refine ⟨?_, ?_, fun _ => ⟨m, hfirst, rfl, rfl⟩⟩ <;> simp

/-- A method whose body holds a proof chain behind an assertion, with a typed formal parameter. -/
theorem Node.terms_agree_method :
    let claim := detached (.assert (var "x"))
    let chain := detached (.proof [int 1, int 2] [none, none] ["", ""])
    let formal := detached (.var "x" (some .value))
    let body := detached (.ite (int 0) (detached (.tuple [nop, claim])) chain)
    let n := detached (.method "m" [formal] body)
    (∃ kept, (Pass.keep : Pass Unit).run () n = .ok (kept, ())) ∧ ¬n.SurfaceFree ∧
      Dafny.term n = .error (.notExpression claim) ∧
      Rosette.term n = .error (.notExpression claim) := by
  intro claim chain formal body n
  have hkeep : (Pass.keep : Pass Unit).run () n = .ok (n, ()) := by rfl
  have hfirst : n.preorder.find? isSurface = some claim := by rfl
  obtain ⟨-, -, hagree⟩ := terms_agree hkeep
  have hfree : ¬n.SurfaceFree := by
    intro h
    cases h claim (List.mem_of_find?_eq_some hfirst)
  obtain ⟨m, hm, hd, hr⟩ := hagree hfree
  obtain rfl := Option.some.inj (hfirst.symm.trans hm)
  exact ⟨⟨n, hkeep⟩, hfree, hd, hr⟩

end ProofScript
