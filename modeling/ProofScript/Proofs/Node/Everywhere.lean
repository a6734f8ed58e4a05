import ProofScript.Node

/-!
# Properties of all nodes of a tree

`Node.Everywhere p n` says that every node of the tree `n` has the property `p`. It unfolds along
the constructs (`everywhere_mk`), and trees admit an induction in which the property may be assumed
of all children (`Node.induct`).
-/

namespace ProofScript

namespace Node

/-- Every node of a tree has the property `p`. -/
def Everywhere (p : Node → Prop) (n : Node) : Prop := ∀ m ∈ n.preorder, p m

variable {p q : Node → Prop} {n : Node}

theorem everywhere_mk {id : NodeId} {span : Span} {s : Shape Node} :
    Everywhere p (mk id span s) ↔ p (mk id span s) ∧ ∀ k ∈ s.children, k.Everywhere p := by
  simp only [Everywhere, preorder_mk, List.mem_cons, List.mem_flatMap]
  constructor
  · intro h
    exact ⟨h _ (.inl rfl), fun k hk m hm => h m (.inr ⟨k, hk, hm⟩)⟩
  · rintro ⟨hroot, hbelow⟩ m (rfl | ⟨k, hk, hm⟩)
    · exact hroot
    · exact hbelow k hk m hm

theorem everywhere_iff : n.Everywhere p ↔ p n ∧ ∀ k ∈ n.children, k.Everywhere p := by
  cases n
  exact everywhere_mk

theorem Everywhere.root (h : n.Everywhere p) : p n := (everywhere_iff.1 h).1

theorem Everywhere.child (h : n.Everywhere p) {k : Node} (hk : k ∈ n.children) : k.Everywhere p :=
  (everywhere_iff.1 h).2 k hk

theorem Everywhere.imp (h : n.Everywhere p) (hpq : ∀ m, p m → q m) : n.Everywhere q :=
  fun m hm => hpq m (h m hm)

theorem Everywhere.and (hp : n.Everywhere p) (hq : n.Everywhere q) :
    n.Everywhere fun m => p m ∧ q m :=
  fun m hm => ⟨hp m hm, hq m hm⟩

/-! ## Height and induction -/

theorem height_mk (id : NodeId) (span : Span) (s : Shape Node) :
    (mk id span s).height = (s.children.map height).foldl max 0 + 1 := by
  rw [height, fold_mk, Shape.children_map]
  rfl

theorem height_pos (n : Node) : 0 < n.height := by
  cases n with
  | mk id span s => rw [height_mk]; exact Nat.succ_pos _

theorem height_lt_of_mem {id : NodeId} {span : Span} {s : Shape Node} {k : Node}
    (hk : k ∈ s.children) : k.height < (mk id span s).height := by
  have hmem : k.height ∈ s.children.map height := List.mem_map_of_mem hk
  have hle := List.le_max_of_mem hmem
  rw [height_mk, List.foldl_max_eq_max (List.ne_nil_of_mem hmem)]
  omega

/-- Induction over trees: the property may be assumed of the subtrees just below the root. -/
theorem induct {motive : Node → Prop}
    (step : ∀ id span s, (∀ k ∈ s.children, motive k) → motive (mk id span s)) (n : Node) :
    motive n := by
  generalize hh : n.height = h
  induction h using Nat.strongRecOn generalizing n with
  | ind h ih =>
    cases n with
    | mk id span s =>
      exact step id span s fun k hk => ih k.height (hh ▸ height_lt_of_mem hk) k rfl

end Node

end ProofScript
