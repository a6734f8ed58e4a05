import ProofScript.Object.Immutability
import ProofScript.Object.Record
import ProofScript.Proofs.Node.Walking

/-!
# The analyses get through

The passes that collect assignments, mark initialisers and collect objects are gentle, so none of
the analyses fails on a tree whose nodes stand where they belong; and marking the initialisers
leaves the tree as it is up to marks. Two of the passes note something for each allocation, and keep
it in the same way.
-/

namespace ProofScript

variable {σ : Type} {w : WalkState σ} {fails : TreeError → Prop}

@[simp] theorem ends_push {n : Node} {post : Unit → WalkState σ → Prop} :
    Ends (Walk.push n) post fails w ↔
      post () { w with context := Frame.ofNode n :: w.context } := Iff.rfl

@[simp] theorem ends_context {post : List Frame → WalkState σ → Prop} :
    Ends Walk.context post fails w ↔ post w.context w := Iff.rfl

@[simp] theorem ends_update {f : σ → σ} {post : Unit → WalkState σ → Prop} :
    Ends (Walk.update f) post fails w ↔ post () { w with state := f w.state } := Iff.rfl

theorem Mutations.gentle_collect : Mutations.collect.Gentle := by
  intro n w
  simp only [Mutations.collect]
  split <;> simp

theorem Mutations.gentle_mark (m : Mutations) : m.mark.Gentle := by
  intro n w
  obtain ⟨id, span, s⟩ := n
  simp only [Mutations.mark]
  split <;> cases s <;>
    simp [Node.shape, Node.withShape, Node.id, Node.span, Shape.unmarked]

theorem Objects.gentle_collect : Objects.collect.Gentle := by
  intro n w
  simp only [Objects.collect]
  split
  · simp only [ends_bind, ends_push, ends_context]
    split <;> simp
  · simp only [ends_bind, ends_context]
    split <;> simp
  · simp

/-- What is noted for an allocation is found again, when the notes are a list in which the entry of
the allocation is changed, or added at the end. -/
theorem lookup_of_change {α : Type} {start : α} {id : NodeId}
    (change : List (NodeId × α) → List (NodeId × α)) (f : α → α)
    (hnil : change [] = [(id, f start)])
    (hcons : ∀ entry rest, change (entry :: rest) =
      if entry.1 = id then (id, f entry.2) :: rest else entry :: change rest)
    (other : NodeId) (entries : List (NodeId × α)) :
    (change entries).lookup other =
      if other = id then some (f ((entries.lookup id).getD start)) else entries.lookup other := by
  induction entries with
  | nil =>
    rw [hnil]
    by_cases h : other = id
    · simp [h]
    · simp [List.lookup_cons, h, beq_eq_false_iff_ne.2 h]
  | cons entry rest ih =>
    obtain ⟨key, a⟩ := entry
    rw [hcons]
    split
    · rename_i heq
      obtain rfl : key = id := heq
      by_cases h : other = key
      · simp [h]
      · simp [List.lookup_cons, h, beq_eq_false_iff_ne.2 h]
    · rename_i hne
      have hkey : (id == key) = false := beq_eq_false_iff_ne.2 (Ne.symm hne)
      by_cases h : other = key
      · subst h
        simp [hne]
      · simp [List.lookup_cons, beq_eq_false_iff_ne.2 h, hkey, ih]

variable {n : Node}

/-- Marking the initialisers leaves a tree as it is up to marks. -/
theorem Node.annotateImmutable_ok (h : n.Fits) :
    ∃ m, n.annotateImmutable = .ok m ∧ m.unmarked = n.unmarked := by
  obtain ⟨_, mutations, hcollect, -⟩ := Mutations.gentle_collect.run h Mutations.none
  obtain ⟨m, _, hmark, hm⟩ := mutations.gentle_mark.run h ()
  have hmutations : Mutations.ofNode n = .ok mutations := by
    rw [Mutations.ofNode, hcollect]
    rfl
  refine ⟨m, ?_, hm⟩
  rw [Node.annotateImmutable, hmutations]
  show (mutations.mark.run () n >>= fun r => Except.ok r.1) = _
  rw [hmark]
  rfl

/-- The objects of programs can be collected. -/
theorem Objects.ofNodes_ok {roots : List Node} (h : ∀ root ∈ roots, root.Fits) :
    ∃ objects, Objects.ofNodes roots = .ok objects := by
  have step : ∀ (done : List Node) (objects : Objects) root, root ∈ roots → True →
      ∃ next, (do return (← collect.run objects root).2 : Except TreeError Objects) = .ok next ∧
        True := by
    intro done objects root hroot _
    obtain ⟨_, next, hrun, -⟩ := Objects.gentle_collect.run (h root hroot) objects
    exact ⟨next, bind_of_ok hrun rfl, trivial⟩
  obtain ⟨objects, hobjects, -⟩ := foldlM_ok (fun _ _ => True) step trivial
  exact ⟨objects, hobjects⟩

end ProofScript
