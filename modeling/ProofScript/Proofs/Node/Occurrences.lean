import ProofScript.Proofs.Node.Scoping
import ProofScript.Proofs.Node.Walking

/-!
# The occurrences of nodes in a tree

`Node.occurrences` lists the nodes of a tree in preorder, each with the nodes that it stands below.
It knows nothing of walks and of context stacks. A pass that keeps every node and leaves a frame at
some constructs (`Pass.Observes`) sees exactly this: its final state is a fold over the occurrences,
and the context stack that it finds at an occurrence holds the ancestors that have one of these
constructs.
-/

namespace ProofScript

/-- A node in a tree. -/
structure Occurrence where
  /-- The node. -/
  node : Node
  /-- The nodes that it stands below, the innermost one first. -/
  ancestors : List Node

namespace Node

/-- The occurrences of the nodes of a tree that stands below the nodes `above`. -/
def occurrencesBelow (n : Node) (above : List Node) : List Occurrence :=
  fold (fun n (s : Shape (List Node → List Occurrence)) above =>
    ⟨n, above⟩ :: s.children.flatMap fun row => row (n :: above)) n above

/-- The occurrences of the nodes of a whole tree. -/
def occurrences (n : Node) : List Occurrence := n.occurrencesBelow []

variable {n : Node} {above : List Node}

theorem occurrencesBelow_eq (n : Node) (above : List Node) :
    n.occurrencesBelow above =
      ⟨n, above⟩ :: n.children.flatMap fun k => k.occurrencesBelow (n :: above) := by
  cases n
  rw [occurrencesBelow, fold_mk, Shape.children_map, List.flatMap_map]
  rfl

theorem mem_occurrencesBelow {o : Occurrence} :
    o ∈ n.occurrencesBelow above ↔
      o = ⟨n, above⟩ ∨ ∃ k ∈ n.children, o ∈ k.occurrencesBelow (n :: above) := by
  rw [occurrencesBelow_eq, List.mem_cons, List.mem_flatMap]

/-- The nodes that occur in a tree are its nodes. -/
theorem map_node_occurrencesBelow (n : Node) (above : List Node) :
    (n.occurrencesBelow above).map Occurrence.node = n.preorder := by
  induction n using induct generalizing above with
  | step id span s ih =>
    rw [occurrencesBelow_eq, List.map_cons, List.map_flatMap, preorder_mk]
    exact congrArg (_ :: ·) (List.flatMap_congr fun k hk => ih k hk _)

theorem everywhere_iff_occurrences {p : Node → Prop} :
    n.Everywhere p ↔ ∀ o ∈ n.occurrences, p o.node := by
  rw [Everywhere, ← map_node_occurrencesBelow n [], List.forall_mem_map]
  rfl

end Node

/-- The frames of those of the nodes `above` that have one of some constructs. -/
def framesOf (leaves : Tag → Bool) (above : List Node) : List Frame :=
  (above.filter fun a => leaves a.tag).map Frame.ofNode

theorem framesOf_cons (leaves : Tag → Bool) (n : Node) (above : List Node) :
    framesOf leaves (n :: above) = framesOf leaves [n] ++ framesOf leaves above := by
  have hcons : n :: above = [n] ++ above := rfl
  rw [hcons, framesOf, List.filter_append, List.map_append]
  rfl

/-- The name of a method declaration. -/
def Shape.methodName? {α : Type} : Shape α → Option String
  | .method name _ _ => some name
  | _ => none

theorem Shape.methodName?_map {α β : Type} (f : α → β) (s : Shape α) :
    (s.map f).methodName? = s.methodName? := by
  cases s <;> rfl

theorem Frame.name_ofNode (n : Node) : (Frame.ofNode n).name = n.shape.methodName? := by
  obtain ⟨id, span, s⟩ := n
  cases s <;> rfl

/-- The frame of a node does not depend on its children. -/
theorem framesOf_withShape {leaves : Tag → Bool} {n : Node} {s : Shape Node}
    (h : s.map (fun _ => ()) = n.shape.map fun _ => ()) :
    framesOf leaves [n.withShape s] = framesOf leaves [n] := by
  have htag : (n.withShape s).tag = n.tag := Shape.tag_of_frame h
  have hname : (Frame.ofNode (n.withShape s)).name = (Frame.ofNode n).name := by
    rw [Frame.name_ofNode, Frame.name_ofNode, ← Shape.methodName?_map (fun _ => ()) n.shape, ← h,
      Shape.methodName?_map]
    rfl
  have hsame : Frame.ofNode (n.withShape s) = Frame.ofNode n := by
    rw [Frame.ofNode, Frame.ofNode, Frame.mk.injEq]
    exact ⟨htag, rfl, hname⟩
  simp only [framesOf, List.filter_cons, htag, List.filter_nil]
  split
  · rw [List.map_cons, List.map_cons, hsame]
  · rfl

/-! ## Passes that only look -/

section Observes

variable {σ : Type} {pass : Pass σ} {leaves : Tag → Bool} {g : Node → List Frame → σ → σ}

/-- A pass keeps every node, leaves a frame at the nodes that have one of some constructs, and
changes its state by `g`, which is given the context stack that the pass finds. -/
def Pass.Observes (pass : Pass σ) (leaves : Tag → Bool) (g : Node → List Frame → σ → σ) : Prop :=
  ∀ n w, (pass.visit n).run.run w =
    (.ok n, { context := framesOf leaves [n] ++ w.context, state := g n w.context w.state })

theorem Pass.Observes.ends_visit (hp : pass.Observes leaves g) (n : Node) (w : WalkState σ) :
    Ends (pass.visit n) (fun m _ => m = n) (fun _ => True) w := by
  unfold Ends
  rw [hp n w]

/-- What is observed at some occurrences, one after the other. -/
def observe (leaves : Tag → Bool) (g : Node → List Frame → σ → σ) (s : σ)
    (occurrences : List Occurrence) : σ :=
  occurrences.foldl (fun s o => g o.node (framesOf leaves o.ancestors) s) s

/-- The walks over some trees below the nodes `above`, one after the other, lead from one state to
another: the context stack is as it was, and the occurrences in the trees were observed. -/
structure Observed (leaves : Tag → Bool) (g : Node → List Frame → σ → σ) (above trees : List Node)
    (w t : WalkState σ) : Prop where
  /-- The context stack is the old one. -/
  context_eq : t.context = w.context
  /-- The state tells what was observed. -/
  state_eq :
    t.state = observe leaves g w.state (trees.flatMap fun k => k.occurrencesBelow above)

theorem Observed.append {above ks ls : List Node} {w t u : WalkState σ}
    (h : Observed leaves g above ks w t) (h' : Observed leaves g above ls t u) :
    Observed leaves g above (ks ++ ls) w u where
  context_eq := h'.context_eq.trans h.context_eq
  state_eq := by
    rw [h'.state_eq, h.state_eq, List.flatMap_append, observe, observe, observe, List.foldl_append]

theorem Pass.Observes.walkIn (hp : pass.Observes leaves g) (limit : Nat) (place : Option Place)
    (n : Node) (above : List Node) (w : WalkState σ) (hn : n.Passable limit place)
    (hw : w.context = framesOf leaves above) :
    Ends (pass.walkIn limit place n) (fun m t => m = n ∧ Observed leaves g above [n] w t)
      (fun _ => False) w := by
  induction limit generalizing place n above w with
  | zero => exact absurd hn.pos (Nat.lt_irrefl 0)
  | succ limit ih =>
    have hvisit : Ends (pass.visit n) (fun m t => m = n ∧
        t.context = framesOf leaves (n :: above) ∧ w.context <:+ t.context ∧
        t.state = g n (framesOf leaves above) w.state) (fun _ => False) w := by
      unfold Ends
      rw [hp n w, framesOf_cons leaves n above, hw]
      exact ⟨rfl, rfl, List.suffix_append _ _, rfl⟩
    rw [Pass.walkIn, ends_restoring]
    refine hvisit.bind ?_
    rintro m t ⟨rfl, hcontext, hsuffix, hstate⟩
    rw [Place.check_eq_ok.2 hn.accepted, ends_bind, ends_liftM_ok, Shape.traverse_eq, ends_bind,
      ends_map]
    -- The children stand below the node itself, so they find the frame that the visit has left.
    have hloop : Ends
        (m.shape.slotted.mapM fun p =>
          pass.walkIn limit (some { slot := p.1, parent := m.tag }) p.2)
        (fun ks u => ks = m.shape.slotted.map Prod.snd ∧
          Observed leaves g (m :: above) (m.shape.slotted.map Prod.snd) t u)
        (fun _ => False) t := by
      refine ends_mapM (fun done ks u => ks = done.map Prod.snd ∧
        Observed leaves g (m :: above) (done.map Prod.snd) t u) ?_ ⟨rfl, rfl, rfl⟩
      rintro done ks p u hmem ⟨rfl, hdone⟩
      have hu : u.context = framesOf leaves (m :: above) := hdone.context_eq.trans hcontext
      refine (ih _ p.2 (m :: above) u (hn.child hmem m.tag) hu).mono ?_
      rintro k v ⟨rfl, hk⟩
      rw [List.map_append]
      exact ⟨rfl, hdone.append hk⟩
    refine hloop.mono ?_
    rintro ks u ⟨rfl, hdone⟩
    rw [Shape.map_slotted] at hdone ⊢
    rw [Shape.refill_children]
    refine ⟨by cases m; rfl, ?_, ?_⟩
    · show Walk.truncate w.context.length u.context = w.context
      rw [hdone.context_eq]
      exact Walk.truncate_of_suffix hsuffix
    · show u.state = _
      rw [hdone.state_eq, hstate, List.flatMap_singleton, Node.occurrencesBelow_eq]
      rfl

/-- A pass that only looks gets through a tree, and its state is what it observes there. -/
theorem Pass.Observes.run (hp : pass.Observes leaves g) {n : Node} (hn : n.Fits) (start : σ) :
    pass.run start n = .ok (n, observe leaves g start n.occurrences) := by
  obtain ⟨m, t, hrun, rfl, hobserved⟩ := (hp.walkIn n.height none n []
    { context := [], state := start } hn.passable rfl).ok
  have hstate := hobserved.state_eq
  rw [List.flatMap_singleton] at hstate
  simp only [Pass.run, Pass.walk, hrun, hstate]
  rfl

end Observes

end ProofScript
