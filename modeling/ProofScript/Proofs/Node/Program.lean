import ProofScript.Proofs.Node.Walking

/-!
# Trees that stand for programs

The trees that obligations are made of: every node stands where its parent accepts it, and nothing
in the tree directs a proof. Such trees are closed under sequencing, which well-formed trees are
not: the statements before an item are put in sequence from the left.
-/

namespace ProofScript

namespace Node

/-- Every node of the tree stands where its parent accepts it, and none directs a proof. -/
def IsProgram (n : Node) : Prop := n.Everywhere fun m => m.shape.Fits ∧ m.isSurface = false

variable {n m : Node}

theorem isProgram_mk {id : NodeId} {span : Span} {s : Shape Node} :
    (mk id span s).IsProgram ↔
      (s.Fits ∧ s.tag.isSurface = false) ∧ ∀ k ∈ s.children, k.IsProgram :=
  everywhere_mk

theorem IsProgram.fits (h : n.IsProgram) : n.Fits := h.imp fun _ hm => hm.1

theorem IsProgram.notSurface (h : n.IsProgram) : n.isSurface = false := (Everywhere.root h).2

theorem IsProgram.child (h : n.IsProgram) {k : Node} (hk : k ∈ n.children) : k.IsProgram :=
  Everywhere.child h hk

/-- A well-formed tree without surface nodes stands for a program. -/
theorem SurfaceFree.isProgram (h : n.SurfaceFree)
    (hlayers : n.Everywhere fun m => m.shape.WellFormed) : n.IsProgram :=
  fun m hm => ⟨(hlayers m hm).fits, h m hm⟩

theorem isProgram_nop : nop.IsProgram :=
  isProgram_mk.2 ⟨⟨fun _ h => absurd h List.not_mem_nil, rfl⟩, fun _ h => absurd h List.not_mem_nil⟩

theorem isProgram_var (name : String) : (var name).IsProgram :=
  isProgram_mk.2 ⟨⟨fun _ h => absurd h List.not_mem_nil, rfl⟩, fun _ h => absurd h List.not_mem_nil⟩

theorem isProgram_nil : nil.IsProgram :=
  isProgram_mk.2 ⟨⟨fun _ h => absurd h List.not_mem_nil, rfl⟩, fun _ h => absurd h List.not_mem_nil⟩

theorem IsProgram.field (h : n.IsProgram) (name : String) : (field n name).IsProgram :=
  isProgram_mk.2 ⟨⟨by simp [Shape.Fits, Shape.slotted, Slot.accepts], rfl⟩,
    by simpa [Shape.children] using ⟨h, isProgram_nil⟩⟩

theorem IsProgram.seq (hn : n.IsProgram) (hm : m.IsProgram) : (seq n m).IsProgram :=
  isProgram_mk.2 ⟨⟨by simp [Shape.Fits, Shape.slotted, Slot.accepts, hn.notSurface, hm.notSurface],
    rfl⟩, by simpa [Shape.children] using ⟨hn, hm⟩⟩

/-- A method, whose parameters are names. -/
theorem IsProgram.method {formals : List Node} {name : String} {id : NodeId} {span : Span}
    (hformals : ∀ f ∈ formals, f.IsProgram ∧ f.tag = .var) (hn : n.IsProgram) :
    (mk id span (.method name formals n)).IsProgram := by
  refine isProgram_mk.2 ⟨⟨Shape.fits_iff.2 fun f hf => (hformals f hf).2, rfl⟩, fun k hk => ?_⟩
  rcases List.mem_append.1 hk with hk | hk
  · exact (hformals k hk).1
  · obtain rfl := List.mem_singleton.1 hk
    exact hn

/-- An object without fields. -/
theorem IsProgram.allocation {id : NodeId} {span : Span} (hn : n.IsProgram) :
    (mk id span (.new [] n)).IsProgram := by
  refine isProgram_mk.2 ⟨⟨Shape.fits_iff.2 (List.forall_mem_nil _), rfl⟩, fun k hk => ?_⟩
  obtain rfl := List.mem_singleton.1 hk
  exact hn

theorem IsProgram.andThen (hn : n.IsProgram) (hm : m.IsProgram) : (n.andThen m).IsProgram := by
  unfold Node.andThen
  split
  · exact hm
  · exact hn.seq hm

end Node

end ProofScript
