import Mathlib.Data.List.Basic
import ProofScript.Proofs.Node.WellFormed

/-!
# Trees up to marks

The only thing that an analysis changes in a tree is the mark on a field initialiser that says
whether the field is ever assigned. `Node.unmarked` clears the marks, so two trees that agree up to
marks are equal when cleared, and whatever does not depend on marks can be moved from one to the
other.
-/

namespace ProofScript

theorem exists_pair_of_map {α β : Type} {f : α → β} {l : List α} {b b' : β}
    (h : l.map f = [b, b']) : ∃ a a', l = [a, a'] := by
  have hlength : l.length = 2 := by simpa using congrArg List.length h
  exact List.length_eq_two.1 hlength

namespace Shape

variable {α β : Type}

/-- Clears the mark of a field initialiser. -/
def unmarked : Shape α → Shape α
  | init name value _ => init name value false
  | s => s

@[simp] theorem tag_unmarked (s : Shape α) : s.unmarked.tag = s.tag := by
  cases s <;> rfl

@[simp] theorem children_unmarked (s : Shape α) : s.unmarked.children = s.children := by
  cases s <;> rfl

theorem unmarked_map (f : α → β) (s : Shape α) : s.unmarked.map f = (s.map f).unmarked := by
  cases s <;> rfl

end Shape

namespace Node

/-- Clears the marks of all field initialisers. -/
def unmarked (n : Node) : Node := n.fold fun n s => mk n.id n.span s.unmarked

theorem unmarked_mk (id : NodeId) (span : Span) (s : Shape Node) :
    (mk id span s).unmarked = mk id span (s.map unmarked).unmarked := fold_mk _ _ _ _

variable {n m : Node}

theorem shape_unmarked (n : Node) : n.unmarked.shape = (n.shape.map unmarked).unmarked := by
  cases n
  rw [unmarked_mk]
  rfl

@[simp] theorem id_unmarked (n : Node) : n.unmarked.id = n.id := by
  cases n
  rw [unmarked_mk]
  rfl

@[simp] theorem tag_unmarked (n : Node) : n.unmarked.tag = n.tag := by
  rw [tag, shape_unmarked, Shape.tag_unmarked, Shape.tag_map, tag]

@[simp] theorem isSurface_unmarked (n : Node) : n.unmarked.isSurface = n.isSurface := by
  rw [isSurface, tag_unmarked, isSurface]

@[simp] theorem children_unmarked (n : Node) : n.unmarked.children = n.children.map unmarked := by
  rw [children, shape_unmarked, Shape.children_unmarked, Shape.children_map, children]

/-- All nodes of the cleared tree are the cleared nodes. -/
theorem everywhere_unmarked {p : Node → Prop} :
    n.unmarked.Everywhere p ↔ n.Everywhere fun m => p m.unmarked := by
  induction n using induct with
  | step id span s ih =>
    rw [everywhere_iff, children_unmarked, List.forall_mem_map]
    rw [everywhere_iff (n := mk id span s)]
    exact and_congr_right fun _ => forall₂_congr ih

/-- What does not depend on marks holds everywhere in one tree as in the other. -/
theorem everywhere_congr {p : Node → Prop} (hp : ∀ m, p m.unmarked ↔ p m)
    (h : n.unmarked = m.unmarked) : n.Everywhere p ↔ m.Everywhere p := by
  have clear : ∀ k : Node, k.unmarked.Everywhere p ↔ k.Everywhere p := fun k => by
    rw [everywhere_unmarked]
    exact forall₂_congr fun j _ => hp j
  rw [← clear n, h, clear m]

/-! ## Well-formed trees -/

theorem wellFormed_layer_unmarked (n : Node) :
    n.unmarked.shape.WellFormed ↔ n.shape.WellFormed := by
  rw [shape_unmarked]
  cases n.shape with
  | seq a b => simp [Shape.map, Shape.unmarked, Shape.WellFormed]
  | new fields body => simp [Shape.map, Shape.unmarked, Shape.WellFormed]
  | method name formals body => simp [Shape.map, Shape.unmarked, Shape.WellFormed]
  | assign a b => simp [Shape.map, Shape.unmarked, Shape.WellFormed]
  | proof terms hints verbatims =>
    simp [Shape.map, Shape.unmarked, Shape.WellFormed, Option.map_eq_some_iff]
  | assume chain =>
    simp only [Shape.map, Shape.unmarked, Shape.WellFormed, shape_unmarked]
    constructor
    · rintro ⟨a, b, hints, verbatims, h⟩
      cases hs : chain.shape with
      | proof terms hints' verbatims' =>
        simp only [hs, Shape.proof.injEq] at h
        obtain ⟨a', b', rfl⟩ := exists_pair_of_map h.1
        exact ⟨a', b', hints', verbatims', rfl⟩
      | _ => simp [hs] at h
    · rintro ⟨a, b, hints, verbatims, h⟩
      rw [h]
      exact ⟨a.unmarked, b.unmarked, _, verbatims, rfl⟩
  | _ => rfl

theorem surfaceFree_unmarked (n : Node) : n.unmarked.SurfaceFree ↔ n.SurfaceFree := by
  simp only [SurfaceFree, everywhere_unmarked, isSurface_unmarked]

theorem arrangedItem_unmarked (n : Node) : n.unmarked.ArrangedItem ↔ n.ArrangedItem := by
  have below : (∀ k ∈ (n.shape.map unmarked).unmarked.children, k.SurfaceFree) ↔
      ∀ k ∈ n.shape.children, k.SurfaceFree := by
    rw [Shape.children_unmarked, Shape.children_map, List.forall_mem_map]
    exact forall₂_congr fun k _ => surfaceFree_unmarked k
  unfold ArrangedItem
  rw [shape_unmarked]
  cases hs : n.shape with
  | script => rfl
  | assume chain =>
    simp [Shape.map, Shape.unmarked, surfaceFree_unmarked]
  | _ => rw [hs] at below; exact below

theorem arranged_unmarked (n : Node) : n.unmarked.Arranged ↔ n.Arranged := by
  have whole := surfaceFree_unmarked n
  unfold Arranged
  rw [shape_unmarked]
  cases n.shape with
  | script items => simp [Shape.map, Shape.unmarked, arrangedItem_unmarked]
  | _ => exact whole

/-- Trees that agree up to marks are well formed together. -/
theorem WellFormed.congr (hn : n.WellFormed) (h : m.unmarked = n.unmarked) : m.WellFormed where
  layers := (everywhere_congr wellFormed_layer_unmarked h).2 hn.layers
  arranged := by
    rw [← arranged_unmarked, h, arranged_unmarked]
    exact hn.arranged

end Node

end ProofScript
