import ProofScript.Node.Policy
import ProofScript.Proofs.Node.Visits

/-!
# The scope of a context frame

The frames that a pass pushes at a node are seen at the descendants of the node and at no other
node, as long as the pass does nothing to the context stack but push (`Pass.OnlyPushes`). The walk
cuts the stack back after every node, also when it fails below the node, so whatever a pass finds on
the stack comes from the ancestors of the node that it is given.
-/

namespace ProofScript

variable {σ : Type}

/-- A pass changes the context stack only by pushing frames, also when it refuses the node. -/
def Pass.OnlyPushes (pass : Pass σ) : Prop :=
  ∀ n w, w.context <:+ ((pass.visit n).run.run w).2.context

theorem Walk.truncate_of_suffix {before after : List Frame} (h : before <:+ after) :
    truncate before.length after = before :=
  (List.suffix_iff_eq_drop.1 h).symm

namespace Pass

variable {pass : Pass σ}

/-- A walk leaves the context stack as it found it, whether it succeeds or fails. -/
theorem OnlyPushes.context_walkIn (hp : pass.OnlyPushes) (limit : Nat) (place : Option Place)
    (n : Node) (w : WalkState σ) :
    ((pass.walkIn limit place n).run.run w).2.context = w.context := by
  induction limit generalizing place n w with
  | zero => rfl
  | succ limit ih =>
    have hvisit : Keeps (fun t => w.context <:+ t.context) (pass.visit n) :=
      fun t ht => ht.trans (hp n t)
    have hbelow : ∀ m : Node, Keeps (fun t : WalkState σ => w.context <:+ t.context)
        (m.shape.traverse fun slot child => pass.walkIn limit (some ⟨slot, m.tag⟩) child) := by
      intro m
      rw [Shape.traverse_eq]
      refine (keeps_mapM fun p _ t ht => ?_).map _
      rwa [ih]
    have hact := hvisit.bind fun m => (keeps_liftM (x := Place.check place m)).bind fun _ =>
      (hbelow m).bind fun s => keeps_pure (a := m.withShape s)
    exact Walk.truncate_of_suffix (hact w (List.suffix_refl _))

theorem OnlyPushes.keeps_walkIn (hp : pass.OnlyPushes) (limit : Nat) (place : Option Place)
    (n : Node) (c : List Frame) : Keeps (fun w => w.context = c) (pass.walkIn limit place n) := by
  intro w hw
  rw [hp.context_walkIn, hw]

theorem OnlyPushes.context_visitsIn (hp : pass.OnlyPushes) {start : List Frame} (limit : Nat)
    (place : Option Place) (n : Node) (ancestors : List Ancestor) (w : WalkState σ)
    (hw : w.context = ancestors.flatMap Ancestor.pushed ++ start) :
    ∀ v ∈ pass.visitsIn limit place n ancestors w,
      v.context = v.ancestors.flatMap Ancestor.pushed ++ start := by
  induction limit generalizing place n ancestors w with
  | zero => exact fun v hv => absurd hv List.not_mem_nil
  | succ limit ih =>
    intro v hv
    rcases List.mem_cons.1 hv with rfl | hv
    · exact hw
    · have hsuffix := hp n w
      rcases hrun : (pass.visit n).run.run w with ⟨r, t⟩
      simp only [hrun] at hv hsuffix
      cases r with
      | error => exact absurd hv List.not_mem_nil
      | ok m =>
        cases hplace : Place.check place m with
        | error => simp [hplace] at hv
        | ok =>
          simp only [hplace] at hv
          obtain ⟨pushed, hpushed⟩ := hsuffix
          have htake : t.context.take (t.context.length - w.context.length) = pushed := by
            simp [← hpushed]
          rw [htake] at hv
          have hchild : t.context =
              (⟨m, pushed⟩ :: ancestors).flatMap Ancestor.pushed ++ start := by
            rw [← hpushed, hw, List.flatMap_cons, List.append_assoc]
          refine forall_visitsAlong
            (fun v => v.context = v.ancestors.flatMap Ancestor.pushed ++ start)
            (fun u => u.context = t.context) ?_ ?_ _ t rfl v hv
          · exact fun p => hp.keeps_walkIn limit _ p.2 t.context
          · exact fun p u hu => ih _ p.2 _ u (hu.trans hchild)

/-- The frames of a pass that only pushes are scoped to descendants. A walk leaves the context stack
as it found it, whether it succeeds or fails, and the pass finds at every node the frames that were
pushed at the ancestors of the node, on top of those that the walk started with. The visits are all
that there are: a pass that notes where it is called notes these. -/
theorem OnlyPushes.context_scoped {pass : Pass σ} (hp : pass.OnlyPushes) (limit : Nat) (n : Node)
    (w : WalkState σ) :
    ((pass.walk limit n).run.run w).2.context = w.context ∧
    (∀ v ∈ pass.visits limit n w,
      v.context = v.ancestors.flatMap Ancestor.pushed ++ w.context) ∧
    (pass.noting.walk limit n).run.run (w.noted []) =
      (((pass.walk limit n).run.run w).1,
        ((pass.walk limit n).run.run w).2.noted ((pass.visits limit n w).map Visit.note)) := by
  refine ⟨hp.context_walkIn limit none n w, ?_, ?_⟩
  · exact hp.context_visitsIn limit none n [] w rfl
  · exact pass.noting_walkIn limit none n [] w []

end Pass

/-! ## Passes that only push -/

theorem Pass.onlyPushes_iff {pass : Pass σ} :
    pass.OnlyPushes ↔ ∀ n c, Keeps (fun w => c <:+ w.context) (pass.visit n) :=
  ⟨fun h n _ w hw => hw.trans (h n w), fun h n w => h n w.context w (List.suffix_refl _)⟩

section Keeps

variable {c : List Frame}

theorem keeps_push {n : Node} : Keeps (fun w => c <:+ w.context) (Walk.push n : Walk σ Unit) :=
  fun _ hw => hw.trans (List.suffix_cons _ _)

theorem keeps_context : Keeps (fun w => c <:+ w.context) (Walk.context : Walk σ (List Frame)) :=
  fun _ hw => hw

theorem keeps_update {f : σ → σ} : Keeps (fun w => c <:+ w.context) (Walk.update f) :=
  fun _ hw => hw

end Keeps

theorem keeps_use {c : List Frame} (n : Node) (w : WalkState PolicyState) :
    Keeps (fun w => c <:+ w.context)
      (match Rule.use n.tag w.state.rules with
      | some (shape, rules) => do
        Walk.update fun s : PolicyState => { s with rules := rules }
        return n.withShape shape
      | none => return n) := by
  cases Rule.use n.tag w.state.rules with
  | none => exact keeps_pure
  | some use => exact keeps_update.bind fun _ => keeps_pure

/-- A pass that is given as rules only pushes. -/
theorem Policy.onlyPushes_pass (policy : Policy) : policy.pass.OnlyPushes := by
  refine Pass.onlyPushes_iff.2 fun n c => ?_
  simp only [Policy.pass]
  refine keeps_context.bind fun _ => keeps_update.bind fun _ => ?_
  split
  · refine keeps_push.bind fun _ => ?_
    split
    · exact keeps_throw.bind fun _ => keeps_get.bind (keeps_use n)
    · exact keeps_get.bind (keeps_use n)
  · split
    · exact keeps_throw.bind fun _ => keeps_get.bind (keeps_use n)
    · exact keeps_get.bind (keeps_use n)

/-- The frames of an allocation are gone when the walk reaches the conditional after it, and those
of the conditional when the conditional is refused. -/
theorem Pass.OnlyPushes.context_scoped_refused :
    let outer : Frame := { tag := .method, id := .numbered 7, name := some "m" }
    let field := Node.mk (.numbered 2) Span.none (.init "x" (Node.int 0) false)
    let object := Node.mk (.numbered 1) Span.none (.new [field] (Node.var "y"))
    let choice := Node.detached (.ite (Node.var "a") Node.nop Node.nop)
    let n := Node.seq object choice
    let policy : Policy := { push := [.new, .ite], refuse := [.ite], rules := [] }
    let w : WalkState PolicyState := { context := [outer], state := { rules := [], seen := [] } }
    policy.pass.OnlyPushes ∧
    ((policy.pass.walk 4 n).run.run w).1.isOk = false ∧
    ((policy.pass.walk 4 n).run.run w).2.context = [outer] ∧
    ((policy.pass.visits 4 n w).map fun v => (v.node.tag, v.ancestors.map Ancestor.pushed)) =
      [(.seq, []), (.new, [[]]), (.init, [[Frame.ofNode object], []]),
        (.const, [[], [Frame.ofNode object], []]), (.var, [[Frame.ofNode object], []]),
        (.ite, [[]])] ∧
    ∀ v ∈ policy.pass.visits 4 n w,
      v.context = v.ancestors.flatMap Ancestor.pushed ++ [outer] := by
  intro outer field object choice n policy w
  obtain ⟨hcontext, hvisits, -⟩ := context_scoped policy.onlyPushes_pass 4 n w
  exact ⟨policy.onlyPushes_pass, rfl, hcontext, rfl, hvisits⟩

end ProofScript
