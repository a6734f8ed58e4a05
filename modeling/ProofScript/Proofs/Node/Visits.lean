import ProofScript.Proofs.Action
import ProofScript.Proofs.Node.Rebuilding

/-!
# The visits of a walk

A walk gives a pass one node after the other. `Pass.visits` lists these visits in their order, with
what the pass finds on the context stack and with the ancestors of the node in the tree as it is
rewritten: a node is visited because it is a child of what its parent was replaced by. That there
are no other visits, and that they come in this order, is shown by a pass that takes notes
(`Pass.noting_walkIn`).
-/

namespace ProofScript

variable {σ α β : Type}

/-- An ancestor of a node, as the node finds it when it is visited. -/
structure Ancestor where
  /-- What the ancestor was replaced by. -/
  node : Node
  /-- The frames that were pushed when the ancestor was visited, the innermost one first. -/
  pushed : List Frame

/-- A visit of a pass to a node. -/
structure Visit where
  /-- The node that the pass is given. -/
  node : Node
  /-- The context stack that the pass finds, the innermost frame first. -/
  context : List Frame
  /-- The ancestors of the node in the tree as it is rewritten, the innermost one first. -/
  ancestors : List Ancestor

/-- The visits to the members of a list that are walked one after the other, up to the first that
fails. -/
def visitsAlong (walk : α → Walk σ β) (visits : α → WalkState σ → List Visit) :
    List α → WalkState σ → List Visit
  | [], _ => []
  | x :: xs, w =>
    visits x w ++
      match (walk x).run.run w with
      | (.ok _, t) => visitsAlong walk visits xs t
      | (.error _, _) => []

namespace Pass

/-- The visits of a walk of `pass.walkIn`, in their order. -/
def visitsIn (pass : Pass σ) :
    Nat → Option Place → Node → List Ancestor → WalkState σ → List Visit
  | 0, _, _, _, _ => []
  | limit + 1, place, n, ancestors, w =>
    { node := n, context := w.context, ancestors := ancestors } ::
      match (pass.visit n).run.run w with
      | (.error _, _) => []
      | (.ok m, t) =>
        match Place.check place m with
        | .error _ => []
        | .ok _ =>
          let pushed := t.context.take (t.context.length - w.context.length)
          visitsAlong (fun p => pass.walkIn limit (some ⟨p.1, m.tag⟩) p.2)
            (fun p => pass.visitsIn limit (some ⟨p.1, m.tag⟩) p.2 (⟨m, pushed⟩ :: ancestors))
            m.shape.slotted t

/-- The visits of a walk over a whole tree. -/
def visits (pass : Pass σ) (limit : Nat) (n : Node) (w : WalkState σ) : List Visit :=
  pass.visitsIn limit none n [] w

/-- The same pass, which also notes every node that it is given and the context stack that it
finds. -/
def noting (pass : Pass σ) : Pass (σ × List (Node × List Frame)) where
  visit n := ExceptT.mk fun w =>
    let (r, t) := (pass.visit n).run.run { context := w.context, state := w.state.1 }
    (r, { context := t.context, state := (t.state, w.state.2 ++ [(n, w.context)]) })

end Pass

theorem forall_visitsAlong {walk : α → Walk σ β} {visits : α → WalkState σ → List Visit}
    (p : Visit → Prop) (inv : WalkState σ → Prop) (hwalk : ∀ x, Keeps inv (walk x))
    (hvisits : ∀ x w, inv w → ∀ v ∈ visits x w, p v) (xs : List α) (w : WalkState σ) (hw : inv w) :
    ∀ v ∈ visitsAlong walk visits xs w, p v := by
  induction xs generalizing w with
  | nil => exact fun v hv => absurd hv List.not_mem_nil
  | cons x xs ih =>
    intro v hv
    rcases List.mem_append.1 hv with hv | hv
    · exact hvisits x w hw v hv
    · have hnext := hwalk x w hw
      rcases hrun : (walk x).run.run w with ⟨r, t⟩
      rw [hrun] at hv hnext
      cases r with
      | ok => exact ih t hnext v hv
      | error => exact absurd hv List.not_mem_nil

/-! ## The visits are those that the walk makes -/

/-- The same state, with a list of the nodes that were visited and of what was found there. -/
def WalkState.noted (w : WalkState σ) (seen : List (Node × List Frame)) :
    WalkState (σ × List (Node × List Frame)) :=
  { context := w.context, state := (w.state, seen) }

/-- The action `x` does what `y` does from the state `w`, and notes `more`. -/
def Notes (x : Walk (σ × List (Node × List Frame)) α) (y : Walk σ α) (w : WalkState σ)
    (more : List (Node × List Frame)) : Prop :=
  ∀ seen, x.run.run (w.noted seen) = ((y.run.run w).1, (y.run.run w).2.noted (seen ++ more))

section Notes

variable {x : Walk (σ × List (Node × List Frame)) α} {y : Walk σ α} {w : WalkState σ}
  {more : List (Node × List Frame)}

theorem notes_pure {a : α} : Notes (pure a) (pure a : Walk σ α) w [] := by
  intro seen
  rw [List.append_nil]
  rfl

theorem notes_throw {e : TreeError} : Notes (throw e) (throw e : Walk σ α) w [] := by
  intro seen
  rw [List.append_nil]
  rfl

theorem notes_liftM {r : Except TreeError α} : Notes (liftM r) (liftM r : Walk σ α) w [] := by
  intro seen
  rw [List.append_nil]
  cases r <;> rfl

theorem Notes.bind {f : α → Walk (σ × List (Node × List Frame)) β} {g : α → Walk σ β}
    {rest : List (Node × List Frame)} (h : Notes x y w more)
    (hok : ∀ a t, y.run.run w = (.ok a, t) → Notes (f a) (g a) t rest)
    (herror : ∀ e t, y.run.run w = (.error e, t) → rest = []) :
    Notes (x >>= f) (y >>= g) w (more ++ rest) := by
  intro seen
  have hx := h seen
  rcases hrun : y.run.run w with ⟨r, t⟩
  rw [hrun] at hx
  cases r with
  | ok a =>
    rw [run_bind_of_ok hx, run_bind_of_ok hrun, ← List.append_assoc]
    exact hok a t hrun (seen ++ more)
  | error e =>
    rw [run_bind_of_error hx, run_bind_of_error hrun, herror e t hrun, List.append_nil]

theorem Notes.map (h : Notes x y w more) (g : α → β) : Notes (g <$> x) (g <$> y) w more := by
  rw [map_eq_pure_bind, map_eq_pure_bind]
  have hpure := h.bind (fun a t _ => notes_pure (a := g a)) fun _ _ _ => rfl
  rwa [List.append_nil] at hpure

theorem Notes.restoring (h : Notes x y w more) :
    Notes (Walk.restoring x) (Walk.restoring y) w more := by
  intro seen
  rw [Walk.run_restoring, Walk.run_restoring, h seen]
  rfl

end Notes

/-- What is noted of a visit. -/
def Visit.note (v : Visit) : Node × List Frame := (v.node, v.context)

theorem notes_mapM {f : α → Walk (σ × List (Node × List Frame)) β} {g : α → Walk σ β}
    {visits : α → WalkState σ → List Visit}
    (h : ∀ x w, Notes (f x) (g x) w ((visits x w).map Visit.note)) (xs : List α) (w : WalkState σ) :
    Notes (xs.mapM f) (xs.mapM g) w ((visitsAlong g visits xs w).map Visit.note) := by
  induction xs generalizing w with
  | nil => exact notes_pure
  | cons x xs ih =>
    rw [List.mapM_cons, List.mapM_cons, visitsAlong, List.map_append]
    refine (h x w).bind (fun b t hrun => ?_) fun e t hrun => by rw [hrun]; rfl
    have hrest := (ih t).map (b :: ·)
    rw [hrun]
    rwa [map_eq_pure_bind, map_eq_pure_bind] at hrest

namespace Pass

/-- The noting pass goes along with the pass, and its notes are the visits. -/
theorem noting_walkIn (pass : Pass σ) (limit : Nat) (place : Option Place) (n : Node)
    (ancestors : List Ancestor) (w : WalkState σ) :
    Notes (pass.noting.walkIn limit place n) (pass.walkIn limit place n) w
      ((pass.visitsIn limit place n ancestors w).map Visit.note) := by
  induction limit generalizing place n ancestors w with
  | zero => exact notes_throw
  | succ limit ih =>
    have hvisit : Notes (pass.noting.visit n) (pass.visit n) w [(n, w.context)] := fun _ => rfl
    rw [walkIn, walkIn, visitsIn, List.map_cons]
    refine Notes.restoring (hvisit.bind (fun m t hrun => ?_) fun e t hrun => by rw [hrun]; rfl)
    simp only [hrun]
    cases hplace : Place.check place m with
    | error e => exact notes_throw
    | ok =>
      let pushed := t.context.take (t.context.length - w.context.length)
      have hchildren := notes_mapM
        (fun p u => ih (some ⟨p.1, m.tag⟩) p.2 (⟨m, pushed⟩ :: ancestors) u) m.shape.slotted t
      have hshape := (hchildren.map m.shape.refill).map m.withShape
      simp only [Shape.traverse_eq, bind_pure_comp]
      exact notes_liftM.bind (fun _ _ hok => by cases hok; exact hshape) fun _ _ herror => by
        cases herror

end Pass

end ProofScript
